import Mathlib.Data.List.Basic
import Reconcile.Proofs.Resource.Tracking

/-!
# What an update leaves

An update that ends with success leaves the labels and the annotations that the new tree declares
(`Kind.Updates`). It leaves the content that the new tree declares where the trees differ in it;
where they do not, it leaves the content as the update has found it.
-/

namespace Reconcile

variable {α : Type} {kind : Kind α} {root key : String}

open Operation

namespace Kind

/-- The wire form that the edits of an update leave is that of an object. -/
theorem Observable.exists_edited (hobs : kind.Observable key) (hlawful : kind.Lawful root key)
    (live other : α) (labels annotations : Dict String) :
    ∃ changed, kind.toJson changed =
        .obj (kind.edited key live labels annotations (kind.content key other)) ∧
      kind.metadata changed = { kind.metadata live with
        labels := Change.nextTexts (kind.metadata live).labels labels
        annotations := Change.nextTexts (kind.metadata live).annotations annotations } ∧
      kind.content key changed = kind.content key other := by
  let m := kind.metadata live
  let next : ObjectMeta := { m with
    labels := Change.nextTexts m.labels labels
    annotations := Change.nextTexts m.annotations annotations }
  let labelled := Block.put m.fields "labels" (Wire.texts next.labels)
  let annotated := Block.put labelled "annotations" (Wire.texts next.annotations)
  have hannotated : annotated = next.fields := by
    refine Entries.Ascending.ext
      (Block.ascending_put (Block.ascending_put m.ascending_fields _ _) _ _) next.ascending_fields
      fun k => ?_
    rw [Block.lookup_put, Block.lookup_put, m.lookup_fields, next.lookup_fields]
    by_cases hannotations : k = "annotations"
    · subst hannotations
      exact Change.texts_nextTexts_or m.annotations annotations
    · by_cases hlabels : k = "labels"
      · subst hlabels
        exact Change.texts_nextTexts_or m.labels labels
      · have hannotations' : (k == "annotations") = false := beq_eq_false_iff_ne.2 hannotations
        have hlabels' : (k == "labels") = false := beq_eq_false_iff_ne.2 hlabels
        simp only [if_neg hannotations, if_neg hlabels, List.lookup_cons, hannotations', hlabels',
          next]
  obtain ⟨changed, hchanged⟩ := hobs.exists_graft live other next
  have hfields : kind.fields changed =
      kind.edited key live labels annotations (kind.content key other) := by
    refine Entries.Ascending.ext (hlawful.ascending changed)
      (((hlawful.ascending live).insert _ _).assign _ _) fun k => ?_
    have hedited : kind.edited key live labels annotations (kind.content key other) =
        Entries.assign key (kind.content key other)
          (Entries.insert "metadata" (.obj annotated) (kind.fields live)) := rfl
    rw [hchanged, hedited, Entries.lookup_assign, Entries.lookup_insert, hannotated]
  refine ⟨changed, ?_, ?_, ?_⟩
  · rw [hlawful.toJson_eq, hfields]
  · have hmeta := hlawful.lookup_metadata changed
    rw [hchanged, if_neg hlawful.key_ne.symm, if_pos rfl] at hmeta
    exact (ObjectMeta.eq_of_fields_eq (Json.obj.inj (Option.some.inj hmeta))).symm
  · show (kind.fields changed).lookup key = _
    rw [hchanged, if_pos rfl]

variable {settings : Settings} {known : Resource} {id : Identity} {model live changed : α}
  {config new : Tree} {session after : Session (List Fault × Memory α)} {interrupted : Bool}
  {edits : List Json.Edit}

/-- Edits make of the object what they can be performed to, also where there are none. -/
theorem Stands.ensures_submitted (h : kind.Stands key known id model session)
    (hobs : kind.Observable key) (hfind : session.world.2.find? id.ns id.name = some live)
    (hperform : Json.Edit.performAll? edits (kind.toJson live) = some (kind.toJson changed))
    (hname : (kind.metadata changed).name = some id.name) :
    Ensures ((Controller.inMemory kind settings).submitted id edits)
      (fun _ => kind.Stands key known id changed) (fun _ => kind.Stands key known id model)
      session := by
  refine Controller.ensures_submitted (fun hnil => ?_)
    fun _ => h.ensures_submit hobs hfind hperform hname
  subst hnil
  -- Edits that do nothing leave the same wire form, which is that of one object only.
  have hsame : live = changed := by
    have hread := hobs.ofJson?_toJson live
    rw [Option.some.inj hperform, hobs.ofJson?_toJson] at hread
    exact (Option.some.inj hread).symm
  subst hsame
  exact ⟨h.resource, h.holds.statusOnly, live, hfind, hname, Follows.refl kind key live⟩

/-- What the edits of an update make of a live object, where the cluster holds one that follows what
the old tree declares. -/
theorem Follows.exists_changed {old desired : Block} {before declared : α}
    (h : kind.Follows key interrupted before model) (hlive : kind.Follows key false model live)
    (hlawful : kind.Lawful root key) (hobs : kind.Observable key) (hold : kind.schema.Accepts old)
    (hdesired : kind.schema.Accepts desired) (hbefore : kind.expand (.obj old) = .ok before)
    (hdeclared : kind.expand (.obj desired) = .ok declared)
    (hedits : kind.edits (.obj old) (.obj desired) = .ok edits) :
    ∃ changed, Json.Edit.performAll? (Change.rebase kind.mutablePaths (kind.toJson live) edits)
        (kind.toJson live) = some (kind.toJson changed) ∧
      (kind.metadata changed).name = (kind.metadata live).name ∧
      kind.Follows key interrupted declared changed ∧
      kind.content key changed = if old.lookup root = desired.lookup root
        then kind.content key model else kind.content key declared := by
  have hboth := hlive.trans h
  have hsome : (kind.content key live).isSome = (kind.content key before).isSome := by
    rcases hboth.content with hsame | ⟨_, hdrained⟩
    · rw [hsame]
    · rw [hdrained, hobs.isSome_drained hold hbefore]
  have hperform := hlawful.performAll?_edits hold hdesired hbefore hdeclared hedits hboth.labels
    hboth.annotations hsome
  have hother : kind.contentAfter root key old desired live declared = kind.content key
      (if old.lookup root = desired.lookup root then live else declared) := by
    unfold contentAfter
    split
    · rfl
    · rfl
  rw [hother] at hperform
  obtain ⟨changed, hjson, hmeta, hchanged⟩ := hobs.exists_edited hlawful live
    (if old.lookup root = desired.lookup root then live else declared)
    ((kind.metadata declared).labels.getD Dict.empty)
    ((kind.metadata declared).annotations.getD Dict.empty)
  have hcontent : kind.content key changed = if old.lookup root = desired.lookup root
      then kind.content key model else kind.content key declared := by
    rw [hchanged]
    split
    · exact hlive.content_eq
    · rfl
  refine ⟨changed, ?_, ?_, ⟨?_, ?_, ?_⟩, hcontent⟩
  · rw [hperform, hjson]
  · rw [hmeta]
  · rw [hmeta]
    exact Change.nextTexts_getD _ _
  · rw [hmeta]
    exact Change.nextTexts_getD _ _
  · rw [hcontent]
    split
    · -- What was drained is still drained, since the trees declare the same content.
      rename_i hroot
      have hcongr := hlawful.content_congr hbefore hdeclared hroot
      rcases h.content with hsame | ⟨hinterrupted, hdrained⟩
      · exact .inl (hsame.trans hcongr)
      · exact .inr ⟨hinterrupted, hdrained.trans
          (hobs.drained_congr hold hbefore hdesired hdeclared hcongr)⟩
    · exact .inl rfl

/-- An update keeps a session in step wherever it stops, and one that ends with success leaves an
object that follows what the new tree declares. -/
theorem Stands.ensures_update {old new : Block} {before : α}
    (h : kind.Stands key ⟨some id, .obj old⟩ id model session) (hlawful : kind.Lawful root key)
    (hobs : kind.Observable key) (hold : kind.schema.Accepts old)
    (hnew : kind.schema.Accepts new) (hbefore : kind.expand (.obj old) = .ok before)
    (hmodel : kind.Follows key interrupted before model) :
    Ensures ((Controller.inMemory kind settings).update (.obj new))
      (fun _ after => ∃ declared changed,
        kind.expand (.obj (kind.schema.fill (some old) new)) = .ok declared ∧
        kind.Follows key interrupted declared changed ∧
        (kind.content key changed =
          if old.lookup root = (kind.schema.fill (some old) new).lookup root
          then kind.content key model else kind.content key declared) ∧
        ∃ shown, kind.Stands key ⟨some id, shown⟩ id changed after ∧
          kind.Declares key false shown changed)
      (fun _ => kind.InStep key interrupted) session := by
  have hfilled : kind.schema.Accepts (kind.schema.fill (some old) new) := by
    refine Schema.fill_accepts hlawful.wellNamed hlawful.typedDefaults ?_ hnew
    rintro _ ⟨⟩
    exact hold
  have hbehind : kind.Declares key interrupted (.obj old) model :=
    ⟨old, before, rfl, hold, hbefore, hmodel⟩
  have hid : session.resource.id = some id := by rw [h.resource]
  have hconfig : session.resource.config = .obj old := by rw [h.resource]
  refine Controller.ensures_update (fun hnone => nomatch hnone.symm.trans hid)
    (Resource.forall_id hid ⟨fun _ _ => h.inStep hbehind, fun planned hplanned => ?_⟩)
  rw [hconfig] at hplanned
  have hedits : kind.edits (.obj old) (.obj (kind.schema.fill (some old) new)) = .ok planned :=
    hplanned
  obtain ⟨declared, hdeclared, _⟩ := Steps.bind_eq_ok_iff.1 hedits
  refine (h.ensures_rebased hlawful hobs.key_ne_status planned).mono ?_
    fun _ stopped hstopped => hstopped.inStep hbehind
  rintro edits rebased ⟨hrebased, live, hfind, hname, hlive, rfl⟩
  obtain ⟨changed, hperform, hchangedName, hfollows, hcontent⟩ :=
    hmodel.exists_changed hlive hlawful hobs hold hfilled hbefore hdeclared hedits
  have hdeclares : kind.Declares key interrupted (.obj (kind.schema.fill (some old) new)) changed :=
    ⟨_, declared, rfl, hfilled, hdeclared, hfollows⟩
  refine (hrebased.ensures_submitted hobs hfind hperform (hchangedName.trans hname)).mono ?_
    fun _ stopped hstopped => hstopped.inStep hbehind
  intro _ submitted hsubmitted
  have hdesired : (Controller.inMemory kind settings).desired session.resource (.obj new) =
      ⟨some id, .obj (kind.schema.fill (some old) new)⟩ := by
    rw [h.resource]
    rfl
  have hset : kind.Stands key ⟨some id, .obj (kind.schema.fill (some old) new)⟩ id changed
      { submitted with
        resource := (Controller.inMemory kind settings).desired session.resource (.obj new) } :=
    ⟨hdesired, hsubmitted.holds⟩
  refine (hset.ensures_settle_read hlawful hobs.key_ne_status _).mono ?_
    fun _ stopped hstopped => hstopped.inStep hdeclares
  rintro _ read ⟨shown, hshown, hshownName, hread⟩
  exact ⟨declared, changed, hdeclared, hfollows, hcontent, _, hread,
    hdeclares.flatten hobs hshown hshownName⟩

/-- What an update that ends with success has found and what it leaves. -/
structure Updates (kind : Kind α) (root key : String) (interrupted : Bool) (new : Tree)
    (session after : Session (List Fault × Memory α)) (id : Identity)
    (model declared changed : α) : Prop where
  known : session.resource.id = some id
  /-- The tree before the update declares the object before the update. -/
  declares : kind.Declares key interrupted session.resource.config model
  found : kind.Holds key id model session.world.2
  expand : kind.expand (kind.schema.normalize (some session.resource.config) new) = .ok declared
  labels : (kind.metadata changed).labels.getD Dict.empty =
    (kind.metadata declared).labels.getD Dict.empty
  annotations : (kind.metadata changed).annotations.getD Dict.empty =
    (kind.metadata declared).annotations.getD Dict.empty
  /-- The content is not touched where the trees declare the same. -/
  content : kind.content key changed =
    if Tree.find? [root] session.resource.config =
        Tree.find? [root] (kind.schema.normalize (some session.resource.config) new)
    then kind.content key model else kind.content key declared
  /-- The tree after the update declares the object after the update. -/
  stands : ∃ shown, kind.Stands key ⟨some id, shown⟩ id changed after ∧
    kind.Declares key false shown changed

/-- An update keeps a session in step, and one that ends with success has done what it has to. -/
theorem InStep.ensures_update (h : kind.InStep key interrupted session)
    (hlawful : kind.Lawful root key) (hobs : kind.Observable key)
    (hnew : kind.schema.Conforms new) :
    Ensures ((Controller.inMemory kind settings).update new)
      (fun _ after => ∃ id model declared changed,
        kind.Updates root key interrupted new session after id model declared changed)
      (fun _ => kind.InStep key interrupted) session := by
  cases hid : session.resource.id with
  | none =>
      exact Controller.ensures_update (fun _ => h) fun _ hother => nomatch hid.symm.trans hother
  | some id =>
      obtain ⟨model, hdeclares, hholds⟩ := h.tracked id hid
      obtain ⟨old, before, hold, haccepts, hbefore, hmodel⟩ := hdeclares
      obtain ⟨newBlock, rfl, hnewBlock⟩ := hnew
      have hstands : kind.Stands key ⟨some id, .obj old⟩ id model session :=
        ⟨by rw [← hid, ← hold], hholds⟩
      have hdesired : kind.schema.normalize (some session.resource.config) (.obj newBlock) =
          .obj (kind.schema.fill (some old) newBlock) := by
        rw [hold]
        rfl
      have hroots : ∀ block : Block, Tree.find? [root] (.obj block) = block.lookup root :=
        fun block => Option.bind_fun_some _
      refine (hstands.ensures_update hlawful hobs haccepts hnewBlock hbefore hmodel).mono ?_
        fun _ _ hstopped => hstopped
      rintro _ after ⟨declared, changed, hdeclared, hfollows, hcontent, hstood⟩
      refine ⟨id, model, declared, changed, hid, ?_, hholds, ?_, hfollows.labels,
        hfollows.annotations, ?_, hstood⟩
      · exact ⟨old, before, hold, haccepts, hbefore, hmodel⟩
      · rw [hdesired]
        exact hdeclared
      · rw [hdesired, hold, hroots, hroots]
        exact hcontent

end Kind

end Reconcile
