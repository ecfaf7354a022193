import Mathlib.Data.List.Basic
import Reconcile.Deployment.Upgrades
import Reconcile.Proofs.Record.Moving
import Reconcile.Proofs.Record.RoundTrip

/-!
# What the upgrades of deployment records do

The first step moves the name and the loose fields of the template. No field is moved to a place
that another one leaves or goes to, so that each loose field is moved as if it were the only one
(`moved_foldl`). In the end the record holds none of them below the template
(`get?_gatherBlocks_source`), below the specification block what moving each by itself leaves there
(`get?_gatherBlocks_target`), and the rest as it was (`get?_gatherBlocks_of_apart`). The second step
only adds what is not there (`get?_addDefaults`).
-/

namespace Reconcile.Deployment

open Schema

variable {attributes : Attributes} {key rest k : String}

/-- The key that a loose field of the template is moved to. -/
def looseTarget (rest : String) : String := templatePrefix ++ "spec.0." ++ rest

/-- The key of the specification block of a template. -/
def podKey : String := templatePrefix ++ "spec"

theorem looseTemplateField?_eq_some_iff : looseTemplateField? key = some rest ↔
    key = templatePrefix ++ rest ∧ Text.dropPrefix? "spec." rest = none ∧
      Text.dropPrefix? "metadata." rest = none := by
  rw [looseTemplateField?, Option.filter_eq_some_iff, Text.dropPrefix?_eq_some_iff,
    Bool.and_eq_true, Option.isNone_iff_eq_none, Option.isNone_iff_eq_none]

/-- A field below a name that is neither that of the metadata nor that of the specification block
is loose. -/
theorem looseTemplateField?_of_under {name : String} (hdot : '.' ∉ name.toList)
    (hspec : name ≠ "spec") (hmeta : name ≠ "metadata") (h : Under name rest) :
    looseTemplateField? (templatePrefix ++ rest) = some rest := by
  have hnone : ∀ other : String, '.' ∉ other.toList → name ≠ other →
      Text.dropPrefix? (other ++ ".") rest = none := by
    intro other hother hne
    refine Option.eq_none_iff_forall_ne_some.2 fun after hafter => ?_
    refine h.disjoint_root hdot hother hne (.inr ⟨after, ?_⟩)
    exact Text.dropPrefix?_eq_some_iff.1 hafter
  exact looseTemplateField?_eq_some_iff.2 ⟨rfl, hnone "spec" (by decide) hspec,
    hnone "metadata" (by decide) hmeta⟩

/-- A field of the metadata of a template is not loose. -/
theorem looseTemplateField?_metadata (h : Under (templatePrefix ++ "metadata") k)
    (hne : k ≠ templatePrefix ++ "metadata") : looseTemplateField? k = none := by
  rcases h with heq | ⟨after, rfl⟩
  · exact absurd heq hne
  · refine Option.eq_none_iff_forall_ne_some.2 fun rest hrest => ?_
    obtain ⟨hkey, _, hnone⟩ := looseTemplateField?_eq_some_iff.1 hrest
    rw [String.append_assoc, String.append_assoc] at hkey
    have hafter : Text.dropPrefix? "metadata." rest = some after := by
      rw [← (String.append_right_inj templatePrefix).1 hkey, ← String.append_assoc]
      exact Text.dropPrefix?_eq_some_iff.2 rfl
    rw [hafter] at hnone
    cases hnone

theorem looseTarget_eq (rest : String) : looseTarget rest = elementPrefix podKey 0 ++ rest := by
  have hbegin : elementPrefix podKey 0 = templatePrefix ++ "spec.0." := by decide
  rw [looseTarget, hbegin]

/-- The targets of loose fields are in the element of the specification block. -/
theorem under_element_looseTarget (rest : String) :
    Under (memberKey podKey (toString 0)) (looseTarget rest) :=
  .inr ⟨rest, looseTarget_eq rest⟩

theorem under_looseTarget (rest : String) : Under podKey (looseTarget rest) :=
  (under_element_looseTarget rest).of_member

theorem looseTarget_ne_counter (rest : String) : looseTarget rest ≠ lengthKey podKey := fun heq =>
  not_under_lengthKey podKey 0 (heq ▸ under_element_looseTarget rest)

/-- A loose field is within the template. -/
theorem under_template_of_loose (h : looseTemplateField? key = some rest) :
    Under "spec.0.template.0" key := by
  rw [(looseTemplateField?_eq_some_iff.1 h).1]
  exact .inr ⟨rest, rfl⟩

/-- The specification block is within the template. -/
theorem under_template_of_podKey (h : Under podKey k) : Under "spec.0.template.0" k := by
  have hkey : podKey = memberKey "spec.0.template.0" "spec" := by decide
  exact Under.of_member (hkey ▸ h)

theorem under_spec_of_template (h : Under "spec.0.template.0" k) :
    Under ("spec.0." ++ "template") k := by
  have hkey : "spec.0.template.0" = memberKey ("spec.0." ++ "template") "0" := by decide
  exact Under.of_member (hkey ▸ h)

theorem under_root_of_spec {name : String} (h : Under ("spec.0." ++ name) k) : Under "spec" k := by
  have hbegin : "spec.0." = elementPrefix "spec" 0 := by decide
  rw [hbegin] at h
  exact h.of_elementPrefix.of_member

/-- A loose field and its target are within the specification. -/
theorem under_spec_of_loose (h : looseTemplateField? key = some rest) : Under "spec" key :=
  under_root_of_spec (under_spec_of_template (under_template_of_loose h))

theorem under_spec_of_podKey (h : Under podKey k) : Under "spec" k :=
  under_root_of_spec (under_spec_of_template (under_template_of_podKey h))

theorem looseTarget_inj {a b : String} (h : looseTarget a = looseTarget b) : a = b :=
  (String.append_right_inj (templatePrefix ++ "spec.0.")).1 h

/-- The targets of loose fields are not loose themselves. -/
theorem looseTemplateField?_looseTarget (rest : String) :
    looseTemplateField? (looseTarget rest) = none := by
  refine Option.eq_none_iff_forall_ne_some.2 fun other hother => ?_
  obtain ⟨hkey, hnone, _⟩ := looseTemplateField?_eq_some_iff.1 hother
  rw [looseTarget, String.append_assoc] at hkey
  have hafter : Text.dropPrefix? "spec." other = some ("0." ++ rest) := by
    rw [← (String.append_right_inj templatePrefix).1 hkey]
    refine Text.dropPrefix?_eq_some_iff.2 ?_
    rw [← String.append_assoc]
    rfl
  rw [hafter] at hnone
  cases hnone

/-- The counter of the specification block is not loose. -/
theorem looseTemplateField?_counter : looseTemplateField? (lengthKey podKey) = none := by decide

/-! ## Moving the loose fields -/

/-- A field that is not loose stays where it is. -/
theorem moveTemplateField_of_not_loose (h : looseTemplateField? key = none)
    (state : Bool × Attributes) : moveTemplateField state key = state := by
  rw [moveTemplateField, h]

/-- A loose field is moved, and whether one was moved is remembered. -/
theorem moveTemplateField_of_loose (h : looseTemplateField? key = some rest)
    (state : Bool × Attributes) : moveTemplateField state key =
      (state.1 || (state.2.rename key (looseTarget rest)).1 = .moved,
        (state.2.rename key (looseTarget rest)).2) := by
  rw [moveTemplateField, h]
  rfl

/-- A loose field is not its own target. -/
theorem ne_looseTarget (h : looseTemplateField? key = some rest) (other : String) :
    key ≠ looseTarget other := by
  rintro rfl
  rw [looseTemplateField?_looseTarget] at h
  cases h

/-- Moving a field leaves alone what is neither the field nor its target. -/
theorem get?_moveTemplateField_of_ne (state : Bool × Attributes)
    (h : ∀ rest, looseTemplateField? key = some rest → k ≠ key ∧ k ≠ looseTarget rest) :
    (moveTemplateField state key).2.get? k = state.2.get? k := by
  cases hloose : looseTemplateField? key with
  | none => rw [moveTemplateField_of_not_loose hloose]
  | some rest =>
      obtain ⟨hne, htarget⟩ := h rest hloose
      rw [moveTemplateField_of_loose hloose,
        Attributes.get?_rename (ne_looseTarget hloose rest), if_neg hne,
        if_neg fun heq => htarget heq.1]

/-- A loose field is known by what follows the template's prefix. -/
theorem ne_of_rest_ne {other rest' : String} (h : looseTemplateField? key = some rest)
    (hother : looseTemplateField? other = some rest') (hne : key ≠ other) :
    looseTarget rest ≠ looseTarget rest' := fun heq => hne <| by
  rw [(looseTemplateField?_eq_some_iff.1 h).1, (looseTemplateField?_eq_some_iff.1 hother).1,
    looseTarget_inj heq]

/-- Moving a field touches neither another one nor the target of that. -/
theorem get?_moveTemplateField_of_other {other : String} (state : Bool × Attributes)
    (h : looseTemplateField? key = some rest) (hne : key ≠ other) :
    (moveTemplateField state other).2.get? key = state.2.get? key ∧
      (moveTemplateField state other).2.get? (looseTarget rest) =
        state.2.get? (looseTarget rest) := by
  refine ⟨get?_moveTemplateField_of_ne state fun rest' hrest' => ⟨hne, ?_⟩,
    get?_moveTemplateField_of_ne state fun rest' hrest' => ⟨?_, ?_⟩⟩
  · exact ne_looseTarget h rest'
  · exact (ne_looseTarget hrest' rest).symm
  · exact ne_of_rest_ne h hrest' hne

/-- A loose field of attributes has been moved as if it were the only one. -/
structure Moved (attributes : Attributes) (key rest : String) (state : Bool × Attributes) :
    Prop where
  moved : (attributes.rename key (looseTarget rest)).1 = .moved → state.1 = true
  source : state.2.get? key = none
  target : state.2.get? (looseTarget rest) =
    (attributes.rename key (looseTarget rest)).2.get? (looseTarget rest)

/-- A loose field is moved by its own step, if it and its target are as they were. -/
theorem moved_moveTemplateField {state : Bool × Attributes}
    (hloose : looseTemplateField? key = some rest)
    (hkey : state.2.get? key = attributes.get? key)
    (htarget : state.2.get? (looseTarget rest) = attributes.get? (looseTarget rest)) :
    Moved attributes key rest (moveTemplateField state key) := by
  have hne := ne_looseTarget hloose rest
  have hmoved := Attributes.rename_eq_moved_congr hne hkey htarget
  rw [moveTemplateField_of_loose hloose]
  refine ⟨fun h => ?_, ?_, ?_⟩
  · simp [hmoved.2 h]
  · rw [Attributes.get?_rename hne, if_pos rfl]
  · simp only [Attributes.get?_rename hne, hmoved, hkey, htarget]

/-- Moving another field leaves a field that was moved at its target. -/
theorem Moved.moveTemplateField {state : Bool × Attributes} (h : Moved attributes key rest state)
    (hloose : looseTemplateField? key = some rest) {other : String} (hne : key ≠ other) :
    Moved attributes key rest (moveTemplateField state other) := by
  obtain ⟨hkey, htarget⟩ := get?_moveTemplateField_of_other state hloose hne
  refine ⟨fun hmoved => ?_, hkey.trans h.source, htarget.trans h.target⟩
  cases hother : looseTemplateField? other with
  | none =>
      rw [moveTemplateField_of_not_loose hother]
      exact h.moved hmoved
  | some rest' => rw [moveTemplateField_of_loose hother, h.moved hmoved, Bool.true_or]

/-- Every loose field is moved as if it were the only one. -/
theorem moved_foldl : ∀ key ∈ attributes.keys, ∀ rest, looseTemplateField? key = some rest →
    Moved attributes key rest (attributes.keys.foldl moveTemplateField (false, attributes)) := by
  have hnodup : attributes.keys.Pairwise (· ≠ ·) := attributes.ascending.nodup_keys
  refine foldl_establishes
    (fun key (state : Bool × Attributes) => ∀ rest, looseTemplateField? key = some rest →
      state.2.get? key = attributes.get? key ∧
        state.2.get? (looseTarget rest) = attributes.get? (looseTarget rest))
    (fun key state => ∀ rest, looseTemplateField? key = some rest →
      Moved attributes key rest state) hnodup ?_ ?_ ?_ ?_
  · exact fun _ _ _ _ => ⟨rfl, rfl⟩
  · intro key _ state hready rest hrest
    obtain ⟨hkey, htarget⟩ := hready rest hrest
    exact moved_moveTemplateField hrest hkey htarget
  · intro first second hne state hready rest hrest
    obtain ⟨hkey, htarget⟩ := hready rest hrest
    obtain ⟨hkey', htarget'⟩ := get?_moveTemplateField_of_other state hrest hne.symm
    exact ⟨hkey'.trans hkey, htarget'.trans htarget⟩
  · exact fun first second hne state hmoved rest hrest =>
      (hmoved rest hrest).moveTemplateField hrest hne

/-- What is neither a loose field nor the target of one stays as it is. -/
theorem get?_foldl_of_ne (h : ∀ key ∈ attributes.keys, ∀ rest,
      looseTemplateField? key = some rest → k ≠ key ∧ k ≠ looseTarget rest) :
    (attributes.keys.foldl moveTemplateField (false, attributes)).2.get? k = attributes.get? k :=
  foldl_unchanged (fun state : Bool × Attributes => state.2.get? k) fun key hkey state =>
    get?_moveTemplateField_of_ne state (h key hkey)

/-- No loose field is left. -/
theorem get?_foldl_source (h : looseTemplateField? key = some rest) :
    (attributes.keys.foldl moveTemplateField (false, attributes)).2.get? key = none := by
  by_cases hkey : key ∈ attributes.keys
  · exact (moved_foldl key hkey rest h).source
  · have hnone : attributes.get? key = none := by
      rwa [Dict.mem_keys_iff, Option.not_isSome_iff_eq_none] at hkey
    rw [get?_foldl_of_ne fun other hother rest' _ =>
      ⟨(ne_of_mem_of_not_mem hother hkey).symm, ne_looseTarget h rest'⟩, hnone]

/-- The target of a loose field holds what moving that field alone leaves there. -/
theorem get?_foldl_target (h : looseTemplateField? key = some rest) :
    (attributes.keys.foldl moveTemplateField (false, attributes)).2.get? (looseTarget rest) =
      (attributes.rename key (looseTarget rest)).2.get? (looseTarget rest) := by
  by_cases hkey : key ∈ attributes.keys
  · exact (moved_foldl key hkey rest h).target
  · have hne := ne_looseTarget h rest
    have hmissing : (attributes.rename key (looseTarget rest)).1 ≠ .moved := fun hmoved =>
      hkey (Dict.mem_keys_iff.2 ((Attributes.rename_eq_moved_iff hne).1 hmoved).1)
    rw [Attributes.get?_rename hne, if_neg hne.symm, if_neg fun h => hmissing h.2]
    exact get?_foldl_of_ne fun other hother rest' hrest' =>
      ⟨(ne_looseTarget hrest' rest).symm,
        ne_of_rest_ne h hrest' (ne_of_mem_of_not_mem hother hkey).symm⟩

/-- No field has been moved: all that is gone are loose fields. -/
structure Unmoved (attributes : Attributes) (state : Bool × Attributes) : Prop where
  moved : state.1 = false
  kept : ∀ k, state.2.get? k = attributes.get? k ∨
    state.2.get? k = none ∧ (looseTemplateField? k).isSome

/-- Where no field would be moved by itself, no step moves one. -/
theorem Unmoved.moveTemplateField {state : Bool × Attributes} (h : Unmoved attributes state)
    (hnone : ∀ rest, looseTemplateField? key = some rest →
      (attributes.rename key (looseTarget rest)).1 ≠ .moved) :
    Unmoved attributes (moveTemplateField state key) := by
  cases hloose : looseTemplateField? key with
  | none => rwa [moveTemplateField_of_not_loose hloose]
  | some rest =>
      have hne := ne_looseTarget hloose rest
      have htarget : state.2.get? (looseTarget rest) = attributes.get? (looseTarget rest) := by
        refine (h.kept _).resolve_right fun hgone => ?_
        rw [looseTemplateField?_looseTarget] at hgone
        exact Bool.false_ne_true hgone.2
      have hmissing : (state.2.rename key (looseTarget rest)).1 ≠ .moved := by
        intro hmoved
        rcases h.kept key with hkey | ⟨hkey, -⟩
        · exact hnone rest hloose ((Attributes.rename_eq_moved_congr hne hkey htarget).1 hmoved)
        · have hbound := ((Attributes.rename_eq_moved_iff hne).1 hmoved).1
          rw [hkey] at hbound
          cases hbound
      rw [moveTemplateField_of_loose hloose]
      refine ⟨by simp [h.moved, hmissing], fun k => ?_⟩
      rw [Attributes.get?_rename hne]
      by_cases hk : k = key
      · rw [if_pos hk, hk, hloose]
        exact .inr ⟨rfl, rfl⟩
      · rw [if_neg hk, if_neg fun h => hmissing h.2]
        exact h.kept k

/-- A field was moved exactly if moving it alone would have moved it. -/
theorem foldl_moved_iff :
    (attributes.keys.foldl moveTemplateField (false, attributes)).1 = true ↔
      ∃ key rest, looseTemplateField? key = some rest ∧
        (attributes.rename key (looseTarget rest)).1 = .moved := by
  constructor
  · contrapose!
    intro hnone
    have hunmoved : Unmoved attributes
        (attributes.keys.foldl moveTemplateField (false, attributes)) :=
      List.foldlRecOn _ _ ⟨rfl, fun _ => .inl rfl⟩ fun _ h key _ => h.moveTemplateField (hnone key)
    rw [hunmoved.moved]
    exact Bool.false_ne_true
  · rintro ⟨key, rest, hloose, hmoved⟩
    have hbound := ((Attributes.rename_eq_moved_iff (ne_looseTarget hloose rest)).1 hmoved).1
    exact (moved_foldl key (Dict.mem_keys_iff.2 hbound) rest hloose).moved hmoved

/-! ## The first step -/

/-- What a counter that is perhaps added binds. -/
theorem get?_countBlock (moved : Bool) (key k : String) : (countBlock moved key attributes).get? k =
    if moved = true ∧ k = key then some ((attributes.get? key).getD "1")
    else attributes.get? k := by
  cases moved with
  | false => simp [countBlock]
  | true => simp [countBlock, Attributes.get?_insertDefault]

/-- The attributes with the name moved into the metadata. -/
def gatherName (attributes : Attributes) : Attributes :=
  countBlock ((attributes.rename "name" "metadata.0.name").1 = .moved) "metadata.#"
    (attributes.rename "name" "metadata.0.name").2

theorem gatherBlocks_eq (attributes : Attributes) : gatherBlocks attributes =
    countBlock ((gatherName attributes).keys.foldl moveTemplateField
        (false, gatherName attributes)).1 (lengthKey podKey)
      ((gatherName attributes).keys.foldl moveTemplateField (false, gatherName attributes)).2 :=
  rfl

/-- Moving the name touches the name and the metadata only. -/
theorem get?_gatherName_of_apart (hname : k ≠ "name") (hmeta : ¬ Under "metadata" k) :
    (gatherName attributes).get? k = attributes.get? k := by
  have hcounter : k ≠ "metadata.#" := by
    rintro rfl
    exact hmeta (.inr ⟨"#", by decide⟩)
  have htarget : k ≠ "metadata.0.name" := by
    rintro rfl
    exact hmeta (.inr ⟨"0.name", by decide⟩)
  rw [gatherName, get?_countBlock, if_neg fun h => hcounter h.2,
    Attributes.get?_rename (by decide), if_neg hname, if_neg fun h => htarget h.1]

/-- A name that is not there, or not needed, leaves the metadata as they are. -/
theorem get?_gatherName_of_kept
    (hkept : (attributes.rename "name" "metadata.0.name").1 ≠ .moved) (hname : k ≠ "name") :
    (gatherName attributes).get? k = attributes.get? k := by
  rw [gatherName, get?_countBlock, if_neg fun h => hkept (by simpa using h.1),
    Attributes.get?_rename (by decide), if_neg hname, if_neg fun h => hkept h.2]

/-- Moving the name leaves the counter of the metadata alone. -/
theorem get?_rename_name_counter (attributes : Attributes) :
    (attributes.rename "name" "metadata.0.name").2.get? "metadata.#" =
      attributes.get? "metadata.#" := by
  rw [Attributes.get?_rename (by decide), if_neg (by decide), if_neg fun h => ?_]
  exact absurd h.1 (by decide)

/-- A name that is moved is found in the metadata, which have one element if they had no
counter. -/
theorem get?_gatherName_of_moved
    (hmoved : (attributes.rename "name" "metadata.0.name").1 = .moved) (hname : k ≠ "name") :
    (gatherName attributes).get? k =
      if k = "metadata.#" then some ((attributes.get? "metadata.#").getD "1")
      else if k = "metadata.0.name" then attributes.get? "name" else attributes.get? k := by
  rw [gatherName, get?_countBlock, get?_rename_name_counter, Attributes.get?_rename (by decide),
    if_neg hname, hmoved]
  simp

/-- The specification is left alone by the name. -/
theorem get?_gatherName_of_spec (h : Under "spec" k) :
    (gatherName attributes).get? k = attributes.get? k := by
  refine get?_gatherName_of_apart ?_ (h.disjoint_root (by decide) (by decide) (by decide))
  rintro rfl
  exact h.disjoint_root (by decide) (by decide) (by decide) (.refl "name")

/-- A loose field is moved after the name exactly if it is moved before it. -/
theorem rename_gatherName_iff (h : looseTemplateField? key = some rest) :
    ((gatherName attributes).rename key (looseTarget rest)).1 = .moved ↔
      (attributes.rename key (looseTarget rest)).1 = .moved :=
  Attributes.rename_eq_moved_congr (ne_looseTarget h rest)
    (get?_gatherName_of_spec (under_spec_of_loose h))
    (get?_gatherName_of_spec (under_spec_of_podKey (under_looseTarget rest)))

/-- No loose field is left by the first step. -/
theorem get?_gatherBlocks_source (h : looseTemplateField? key = some rest) :
    (gatherBlocks attributes).get? key = none := by
  have hcounter : key ≠ lengthKey podKey := by
    rintro rfl
    rw [looseTemplateField?_counter] at h
    cases h
  rw [gatherBlocks_eq, get?_countBlock, if_neg fun hk => hcounter hk.2, get?_foldl_source h]

/-- The target of a loose field holds what moving that field alone leaves there. -/
theorem get?_gatherBlocks_target (h : looseTemplateField? key = some rest) :
    (gatherBlocks attributes).get? (looseTarget rest) =
      (attributes.rename key (looseTarget rest)).2.get? (looseTarget rest) := by
  have hne := ne_looseTarget h rest
  rw [gatherBlocks_eq, get?_countBlock, if_neg fun hk => looseTarget_ne_counter rest hk.2,
    get?_foldl_target h, Attributes.get?_rename hne, Attributes.get?_rename hne]
  simp only [rename_gatherName_iff h, get?_gatherName_of_spec (under_spec_of_loose h),
    get?_gatherName_of_spec (under_spec_of_podKey (under_looseTarget rest))]

/-- A counter that is perhaps added is one if it was missing and something was moved. -/
theorem get?_countBlock_eq_some_iff {moved : Bool} {counter s : String} :
    (countBlock moved counter attributes).get? counter = some s ↔
      attributes.get? counter = some s ∨
        attributes.get? counter = none ∧ s = "1" ∧ moved = true := by
  rw [get?_countBlock]
  cases moved with
  | false => simp
  | true =>
      cases attributes.get? counter with
      | none => simp [eq_comm]
      | some existing => simp

/-- The specification block has one element if it had no counter and a loose field was moved. -/
theorem get?_gatherBlocks_counter_iff {s : String} :
    (gatherBlocks attributes).get? (lengthKey podKey) = some s ↔
      attributes.get? (lengthKey podKey) = some s ∨
        attributes.get? (lengthKey podKey) = none ∧ s = "1" ∧
          ∃ key rest, looseTemplateField? key = some rest ∧
            (attributes.rename key (looseTarget rest)).1 = .moved := by
  have hcounter : ((gatherName attributes).keys.foldl moveTemplateField
      (false, gatherName attributes)).2.get? (lengthKey podKey) =
        attributes.get? (lengthKey podKey) := by
    rw [get?_foldl_of_ne, get?_gatherName_of_spec (under_spec_of_podKey (.lengthKey podKey))]
    intro key _ rest hrest
    refine ⟨?_, (looseTarget_ne_counter rest).symm⟩
    rintro rfl
    rw [looseTemplateField?_counter] at hrest
    cases hrest
  rw [gatherBlocks_eq, get?_countBlock_eq_some_iff, hcounter, foldl_moved_iff]
  refine or_congr_right (and_congr_right fun _ => and_congr_right fun _ => ?_)
  exact exists_congr fun key => exists_congr fun rest =>
    and_congr_right fun hloose => rename_gatherName_iff hloose

/-- Where nothing was and nothing is moved to, nothing is. -/
theorem get?_gatherBlocks_of_none (h : (gatherName attributes).get? k = none)
    (hpod : ¬ Under podKey k) : (gatherBlocks attributes).get? k = none := by
  have hcounter : k ≠ lengthKey podKey := by
    rintro rfl
    exact hpod (.lengthKey podKey)
  rw [gatherBlocks_eq, get?_countBlock, if_neg fun hk => hcounter hk.2, get?_foldl_of_ne, h]
  intro other hother rest hrest
  refine ⟨?_, ?_⟩
  · rintro rfl
    rw [Dict.mem_keys_iff, h] at hother
    cases hother
  · rintro rfl
    exact hpod (under_looseTarget rest)

/-- What is neither a loose field nor below the specification block is left to the name. -/
theorem get?_gatherBlocks_of_apart (h : looseTemplateField? k = none) (hpod : ¬ Under podKey k) :
    (gatherBlocks attributes).get? k = (gatherName attributes).get? k := by
  have hcounter : k ≠ lengthKey podKey := by
    rintro rfl
    exact hpod (.lengthKey podKey)
  rw [gatherBlocks_eq, get?_countBlock, if_neg fun hk => hcounter hk.2, get?_foldl_of_ne]
  intro other _ rest hrest
  refine ⟨?_, ?_⟩
  · rintro rfl
    rw [h] at hrest
    cases hrest
  · rintro rfl
    exact hpod (under_looseTarget rest)

/-! ## The second step -/

/-- What the second step binds. -/
theorem get?_addDefaults (k : String) : (addDefaults attributes).get? k =
    if k = "spec.0.paused" then some ((attributes.get? k).getD "false")
    else if k = "spec.0.progress_deadline_seconds" then some ((attributes.get? k).getD "600")
    else attributes.get? k := by
  show ((attributes.insertDefault "spec.0.paused" "false").2.insertDefault
    "spec.0.progress_deadline_seconds" "600").2.get? k = _
  rw [Attributes.get?_insertDefault, Attributes.get?_insertDefault, Attributes.get?_insertDefault]
  by_cases hpaused : k = "spec.0.paused"
  · subst hpaused
    rfl
  · by_cases hdeadline : k = "spec.0.progress_deadline_seconds"
    · subst hdeadline
      rfl
    · rw [if_neg hdeadline, if_neg hpaused, if_neg hpaused, if_neg hdeadline]

/-! ## Both steps -/

/-- The attributes after both steps. -/
def bothSteps (attributes : Attributes) : Attributes := addDefaults (gatherBlocks attributes)

/-- Outside the template the first step moves the name only. -/
theorem get?_gatherBlocks_of_not_template (h : ¬ Under "spec.0.template.0" k) :
    (gatherBlocks attributes).get? k = (gatherName attributes).get? k := by
  have hloose : looseTemplateField? k = none := Option.eq_none_iff_forall_ne_some.2 fun _ hrest =>
    h (under_template_of_loose hrest)
  exact get?_gatherBlocks_of_apart hloose fun hk => h (under_template_of_podKey hk)

/-- Both steps leave alone what is neither named by them nor in the metadata or the template. -/
theorem get?_bothSteps_of_apart (hname : k ≠ "name") (hmeta : ¬ Under "metadata" k)
    (htemplate : ¬ Under "spec.0.template.0" k) (hpaused : k ≠ "spec.0.paused")
    (hdeadline : k ≠ "spec.0.progress_deadline_seconds") :
    (bothSteps attributes).get? k = attributes.get? k := by
  rw [bothSteps, get?_addDefaults, if_neg hpaused, if_neg hdeadline,
    get?_gatherBlocks_of_not_template htemplate, get?_gatherName_of_apart hname hmeta]

/-- A block that no step names stays as it is. -/
theorem get?_bothSteps_of_root (hdot : '.' ∉ name.toList) (hname : name ≠ "name")
    (hmeta : name ≠ "metadata") (hspec : name ≠ "spec") (h : Under name k) :
    (bothSteps attributes).get? k = attributes.get? k := by
  have hnotSpec : ¬ Under "spec" k := h.disjoint_root hdot (by decide) hspec
  refine get?_bothSteps_of_apart ?_ (h.disjoint_root hdot (by decide) hmeta)
    (fun hk => hnotSpec (under_root_of_spec (under_spec_of_template hk))) ?_ ?_
  · rintro rfl
    exact h.disjoint_root hdot (by decide) hname (.refl "name")
  · rintro rfl
    exact hnotSpec (.inr ⟨"0.paused", by decide⟩)
  · rintro rfl
    exact hnotSpec (.inr ⟨"0.progress_deadline_seconds", by decide⟩)

/-- In the metadata only the name is moved. -/
theorem get?_bothSteps_of_metadata (h : Under "metadata" k) :
    (bothSteps attributes).get? k = (gatherName attributes).get? k := by
  have hspec : ¬ Under "spec" k := h.disjoint_root (by decide) (by decide) (by decide)
  have htemplate : ¬ Under "spec.0.template.0" k := fun hk =>
    hspec (under_root_of_spec (under_spec_of_template hk))
  rw [bothSteps, get?_addDefaults, if_neg, if_neg, get?_gatherBlocks_of_not_template htemplate]
  · rintro rfl
    exact hspec (.inr ⟨"0.progress_deadline_seconds", by decide⟩)
  · rintro rfl
    exact hspec (.inr ⟨"0.paused", by decide⟩)

/-- In the template only loose fields are moved. -/
theorem get?_bothSteps_of_template (h : Under "spec.0.template.0" k) :
    (bothSteps attributes).get? k = (gatherBlocks attributes).get? k := by
  have happart : ∀ other : String, '.' ∉ other.toList → "template" ≠ other →
      k ≠ "spec.0." ++ other := fun other hother hne heq =>
    (under_spec_of_template h).disjoint (by decide) hother hne (.inl heq)
  have hpaused : k ≠ "spec.0.paused" := happart "paused" (by decide) (by decide)
  have hdeadline : k ≠ "spec.0.progress_deadline_seconds" :=
    happart "progress_deadline_seconds" (by decide) (by decide)
  rw [bothSteps, get?_addDefaults, if_neg hpaused, if_neg hdeadline]

/-- A field of the desired content that no step names stays as it is. -/
theorem get?_bothSteps_of_spec (hdot : '.' ∉ name.toList) (htemplate : name ≠ "template")
    (hpaused : name ≠ "paused") (hdeadline : name ≠ "progress_deadline_seconds")
    (h : Under ("spec.0." ++ name) k) : (bothSteps attributes).get? k = attributes.get? k := by
  have happart : ∀ other : String, '.' ∉ other.toList → name ≠ other →
      ¬ Under ("spec.0." ++ other) k := fun other hother hne => h.disjoint hdot hother hne
  have hspec := under_root_of_spec h
  have hmeta : ¬ Under "metadata" k := hspec.disjoint_root (by decide) (by decide) (by decide)
  refine get?_bothSteps_of_apart ?_ hmeta ?_ ?_ ?_
  · rintro rfl
    exact hspec.disjoint_root (by decide) (by decide) (by decide) (.refl "name")
  · exact fun hk => happart "template" (by decide) htemplate (under_spec_of_template hk)
  · exact fun hk => happart "paused" (by decide) hpaused (.inl hk)
  · exact fun hk => happart "progress_deadline_seconds" (by decide) hdeadline (.inl hk)

theorem get?_bothSteps_paused : (bothSteps attributes).get? "spec.0.paused" =
    some ((attributes.get? "spec.0.paused").getD "false") := by
  have hunder : Under ("spec.0." ++ "paused") "spec.0.paused" := .inl (by decide)
  have htemplate : ¬ Under "spec.0.template.0" "spec.0.paused" := fun h =>
    hunder.disjoint (by decide) (by decide) (by decide) (under_spec_of_template h)
  rw [bothSteps, get?_addDefaults, if_pos rfl, get?_gatherBlocks_of_not_template htemplate,
    get?_gatherName_of_spec (under_root_of_spec hunder)]

theorem get?_bothSteps_deadline :
    (bothSteps attributes).get? "spec.0.progress_deadline_seconds" =
      some ((attributes.get? "spec.0.progress_deadline_seconds").getD "600") := by
  have hunder : Under ("spec.0." ++ "progress_deadline_seconds")
    "spec.0.progress_deadline_seconds" := .inl (by decide)
  have htemplate : ¬ Under "spec.0.template.0" "spec.0.progress_deadline_seconds" := fun h =>
    hunder.disjoint (by decide) (by decide) (by decide) (under_spec_of_template h)
  rw [bothSteps, get?_addDefaults, if_neg (by decide), if_pos rfl,
    get?_gatherBlocks_of_not_template htemplate,
    get?_gatherName_of_spec (under_root_of_spec hunder)]

/-- The counter of the template is left alone. -/
theorem get?_bothSteps_templateCounter :
    (bothSteps attributes).get? (lengthKey ("spec.0." ++ "template")) =
      attributes.get? (lengthKey ("spec.0." ++ "template")) := by
  have hspec : Under "spec" (lengthKey ("spec.0." ++ "template")) :=
    under_root_of_spec (.lengthKey _)
  have hkey : "spec.0.template.0" = memberKey ("spec.0." ++ "template") (toString 0) := by decide
  refine get?_bothSteps_of_apart (by decide)
    (hspec.disjoint_root (by decide) (by decide) (by decide)) ?_ (by decide) (by decide)
  rw [hkey]
  exact not_under_lengthKey _ 0

/-- The counter of the desired content is left alone. -/
theorem get?_bothSteps_specCounter :
    (bothSteps attributes).get? (lengthKey "spec") = attributes.get? (lengthKey "spec") := by
  have hspec : Under "spec" (lengthKey "spec") := .lengthKey _
  have hkey : "spec.0.template.0" = memberKey (memberKey "spec" (toString 0)) "template.0" := by
    decide
  refine get?_bothSteps_of_apart (by decide)
    (hspec.disjoint_root (by decide) (by decide) (by decide)) (fun h => ?_) (by decide) (by decide)
  exact not_under_lengthKey "spec" 0 (Under.of_member (hkey ▸ h))

end Reconcile.Deployment
