import Mathlib.Data.List.Basic
import Reconcile.Proofs.Resource.Patches
import Reconcile.Proofs.Resource.Stages

/-!
# The calls of an operation

Whatever a control API answers, an operation stops at the first call that fails and returns the
failure of that call, and it sends no call but readings twice (`Controller.Disciplined`). The calls
of an operation that succeeds have one of five shapes (`Controller.Completes`), in which a wait is a
run of readings: all but the last one show an object that has not converged, and the last one shows
one that has (`Controller.Polled`). `calls_disciplined` says both of every demand.
-/

namespace Reconcile

variable {α σ : Type} {root key : String}

open Operation

/-- The kinds of the calls that are no readings, the last one first. -/
def Trace.changes (trace : Trace σ) : List CallKind := (trace.map (·.1.kind)).filter (· ≠ .get)

theorem Trace.changes_append (trace rest : Trace σ) :
    changes (trace ++ rest) = changes trace ++ changes rest := by
  rw [changes, List.map_append, List.filter_append]
  rfl

namespace Controller

/-! ## What calls answer -/

variable (c : Controller α σ)

/-- What the API has answered to a call of an operation on a tree. Only a creation sends an object,
the one that it asks for. -/
def answer (config : Tree) (entry : Call × σ) : Except Failure (Option α) :=
  match entry.1 with
  | .create _ _ => (c.created config entry.2).map some
  | .get ns name => (c.api.get ns name entry.2).1.map some
  | .patch ns name document => (c.api.patch ns name document entry.2).1.map some
  | .delete ns name propagation =>
    (c.api.delete ns name propagation entry.2).1.map fun _ => none

/-- Every call has succeeded. -/
def Clean (config : Tree) (trace : Trace σ) : Prop :=
  ∀ entry ∈ trace, ∃ value, c.answer config entry = .ok value

/-- The calls of an operation that ends with a result. -/
structure Disciplined (config : Tree) (result : Except Halt Unit) (trace : Trace σ) : Prop where
  /-- Every call before the last one has succeeded. -/
  earlier : c.Clean config trace.tail
  /-- If the last call has failed, its failure is the result. -/
  last : ∀ entry ∈ trace.head?, ∀ failure, c.answer config entry = .error failure →
    result = .error (.failure failure)
  /-- At most one creation, one patch and one deletion have been sent. -/
  once : (Trace.changes trace).Nodup

/-- A call has read an object. -/
def Reads (id : Identity) (entry : Call × σ) (object : α) : Prop :=
  entry.1 = .get id.ns id.name ∧ (c.api.get id.ns id.name entry.2).1 = .ok object

/-- The calls of a wait that is over. -/
structure Polled (id : Identity) (polls : Trace σ) : Prop where
  /-- The last reading has shown an object that has converged. -/
  converged : ∃ entry ∈ polls.head?, ∃ object, c.Reads id entry object ∧
    (c.kind.measure object).observed = (c.kind.measure object).desired
  /-- Every reading before it has shown one that had not. -/
  pending : ∀ entry ∈ polls.tail, ∃ object, c.Reads id entry object ∧
    (c.kind.measure object).observed ≠ (c.kind.measure object).desired
  /-- One reading is enough where objects make no progress that could be measured. -/
  single : (∀ object, c.kind.progress object = none) → polls.length = 1

/-- The calls of an operation that has succeeded, and what is known after it. -/
inductive Completes (session : Session σ) : Demand → Session (Trace σ × σ) → Prop where
  | create {ns name : String} {placed made object : α} {id : Identity} {polls : Trace σ}
      {last : Call × σ} {after : Session (Trace σ × σ)}
      (hasked : c.asked session.resource.config = .ok (ns, placed))
      (hmade : (c.api.create ns placed session.world).1 = .ok made)
      (hid : c.identityOf ns made = .ok id) (hpolls : c.Polled id polls)
      (hlast : c.Reads id last object)
      (htrace : after.world.1 = last :: (polls ++ [(.create ns name, session.world)]))
      (hresource : after.resource = ⟨some id, c.kind.flatten object
        (Schema.normalize c.kind.schema none session.resource.config)⟩) :
      Completes session .create after
  | read {object : α} {id : Identity} {last : Call × σ} {after : Session (Trace σ × σ)}
      (hid : session.resource.id = some id) (hlast : c.Reads id last object)
      (htrace : after.world.1 = [last])
      (hresource : after.resource = ⟨some id, c.kind.flatten object session.resource.config⟩) :
      Completes session .read after
  | update (met : σ) {new : Tree} {object : α} {id : Identity} {planned edits : List Json.Edit}
      {polls : Trace σ} {last : Call × σ} {after : Session (Trace σ × σ)}
      (hid : session.resource.id = some id)
      (hplan : c.kind.plan session.resource.config new = .ok planned)
      (hspared : c.spared id planned session.world = .ok edits) (hpolls : c.Polled id polls)
      (hlast : c.Reads id last object)
      (htrace : after.world.1 = last :: (polls ++
        ((if planned.isEmpty then []
          else [(.patch id.ns id.name (Json.Edit.listToJson edits), met)]) ++
        (if planned.any (Change.addsWholeMap c.kind.mutablePaths) then
          [(.get id.ns id.name, session.world)] else []))))
      (hresource : after.resource = ⟨some id, c.kind.flatten object
        (Schema.normalize c.kind.schema (some session.resource.config) new)⟩) :
      Completes session (.update new) after
  | drained (met : σ) {drain : List Json.Edit} {id : Identity} {polls : Trace σ}
      {after : Session (Trace σ × σ)} (hid : session.resource.id = some id)
      (hdrain : c.kind.drain = some drain) (hpolls : c.Polled id polls)
      (htrace : after.world.1 = (.delete id.ns id.name c.kind.propagation, met) ::
        (polls ++ [(.patch id.ns id.name (Json.Edit.listToJson drain), session.world)]))
      (hresource : after.resource = ⟨none, session.resource.config⟩) :
      Completes session .delete after
  | deleted {id : Identity} {after : Session (Trace σ × σ)}
      (hid : session.resource.id = some id) (hdrain : c.kind.drain = none)
      (htrace : after.world.1 = [(.delete id.ns id.name c.kind.propagation, session.world)])
      (hresource : after.resource = ⟨none, session.resource.config⟩) :
      Completes session .delete after

/-! ## Clean and disciplined traces -/

variable {c} {config : Tree} {id : Identity} {trace rest : Trace σ} {entry : Call × σ}

theorem clean_cons {value : Option α} (hanswer : c.answer config entry = .ok value)
    (h : c.Clean config trace) : c.Clean config (entry :: trace) :=
  List.forall_mem_cons.2 ⟨⟨value, hanswer⟩, h⟩

/-- Calls that have all succeeded are disciplined, whatever stops the operation. -/
theorem disciplined_of_clean {result : Except Halt Unit} (h : c.Clean config trace)
    (honce : (Trace.changes trace).Nodup) : c.Disciplined config result trace where
  earlier := fun entry hentry => h entry (List.mem_of_mem_tail hentry)
  last := by
    intro entry hentry failure hfailure
    obtain ⟨value, hvalue⟩ := h entry (List.mem_of_mem_head? hentry)
    cases hvalue.symm.trans hfailure
  once := honce

/-- Calls that have all succeeded may be followed by one whose failure stops the operation. -/
theorem disciplined_of_failed {failure : Failure} (h : c.Clean config trace)
    (hanswer : c.answer config entry = .error failure)
    (honce : (Trace.changes (entry :: trace)).Nodup) :
    c.Disciplined config (.error (.failure failure)) (entry :: trace) where
  earlier := h
  last := by
    intro other hother failure' hfailure
    obtain rfl := Option.some.inj hother
    rw [Except.error.inj (hanswer.symm.trans hfailure)]
  once := honce

/-- What a call adds to calls that have all succeeded: if it succeeds they still have, and if it
fails it is the last one. -/
theorem disciplined_of_answer {β : Type} {answer : Except Failure β} {value : β → Option α}
    (hanswer : c.answer config entry = answer.map value) (h : c.Clean config trace)
    (honce : (Trace.changes (entry :: trace)).Nodup) :
    (∀ made, answer = .ok made → c.Clean config (entry :: trace)) ∧
      ∀ failure, answer = .error failure →
        c.Disciplined config (.error (.failure failure)) (entry :: trace) := by
  refine ⟨?_, ?_⟩
  · rintro made rfl
    exact clean_cons hanswer h
  · rintro failure rfl
    exact disciplined_of_failed h hanswer honce

/-- A reading is answered with the object that it reads. -/
theorem Reads.answer {object : α} (h : c.Reads id entry object) :
    c.answer config entry = .ok (some object) := by
  obtain ⟨call, met⟩ := entry
  obtain ⟨rfl, hread⟩ := h
  show (c.api.get id.ns id.name met).1.map some = _
  rw [show (c.api.get id.ns id.name met).1 = .ok object from hread]
  rfl

/-- Readings are clean and change nothing. -/
theorem clean_of_reads (h : ∀ entry ∈ trace, ∃ object, c.Reads id entry object) :
    c.Clean config trace ∧ Trace.changes trace = [] := by
  refine ⟨fun entry hentry => ?_, ?_⟩
  · obtain ⟨object, hreads⟩ := h entry hentry
    exact ⟨some object, hreads.answer⟩
  · rw [Trace.changes, List.filter_eq_nil_iff]
    intro kind hkind
    obtain ⟨entry, hentry, rfl⟩ := List.mem_map.1 hkind
    obtain ⟨object, hcall, -⟩ := h entry hentry
    rw [hcall]
    show ¬ decide (CallKind.get ≠ .get) = true
    decide

/-- Readings may follow calls that have all succeeded. -/
theorem Clean.append_reads (h : c.Clean config trace)
    (hreads : ∀ entry ∈ rest, ∃ object, c.Reads id entry object) :
    c.Clean config (rest ++ trace) ∧ Trace.changes (rest ++ trace) = Trace.changes trace := by
  obtain ⟨hclean, hchanges⟩ : c.Clean config rest ∧ Trace.changes rest = [] :=
    clean_of_reads hreads
  refine ⟨List.forall_mem_append.2 ⟨hclean, h⟩, ?_⟩
  rw [Trace.changes_append, hchanges, List.nil_append]

/-- The calls of a wait are readings. -/
theorem Polled.reads (h : c.Polled id trace) :
    ∀ entry ∈ trace, ∃ object, c.Reads id entry object := by
  intro entry hentry
  cases trace with
  | nil => cases hentry
  | cons first rest =>
      rcases List.mem_cons.1 hentry with rfl | hentry
      · obtain ⟨_, hhead, object, hreads, -⟩ := h.converged
        obtain rfl := Option.some.inj hhead
        exact ⟨object, hreads⟩
      · obtain ⟨object, hreads, -⟩ := h.pending entry hentry
        exact ⟨object, hreads⟩

/-- A wait and a reading may follow calls that have all succeeded. -/
theorem disciplined_of_polled {result : Except Halt Unit} {object : α} (h : c.Clean config trace)
    (honce : (Trace.changes trace).Nodup) (hpolls : c.Polled id rest)
    (hlast : c.Reads id entry object) :
    c.Disciplined config result (entry :: (rest ++ trace)) := by
  obtain ⟨hclean, hchanges⟩ :=
    h.append_reads (List.forall_mem_cons.2 ⟨⟨object, hlast⟩, hpolls.reads⟩)
  exact disciplined_of_clean hclean (hchanges ▸ honce)

/-! ## Readings -/

section Readings

variable {session : Session (Trace σ × σ)}

/-- A reading that fails after calls that have all succeeded is the last one. -/
theorem disciplined_of_unread {met : σ} {failure : Failure} (h : c.Clean config trace)
    (honce : (Trace.changes trace).Nodup)
    (hread : (c.api.get id.ns id.name met).1 = .error failure) :
    c.Disciplined config (.error (.failure failure)) ((.get id.ns id.name, met) :: trace) := by
  refine disciplined_of_failed h ?_ honce
  show (c.api.get id.ns id.name met).1.map some = _
  rw [hread]
  rfl

/-- A wait adds its readings to the calls. -/
theorem ensures_settle_polled (hclean : c.Clean config session.world.1)
    (honce : (Trace.changes session.world.1).Nodup) (limit : Duration) :
    Ensures (c.traced.settle id limit)
      (fun _ after => after.resource = session.resource ∧
        ∃ polls, c.Polled id polls ∧ after.world.1 = polls ++ session.world.1)
      (fun halt after => c.Disciplined config (.error halt) after.world.1) session := by
  -- Until the wait is over, its readings have shown objects that have not converged.
  let I (world : Trace σ × σ) : Prop := ∃ polls, world.1 = polls ++ session.world.1 ∧
    ∀ entry ∈ polls, ∃ object, c.Reads id entry object ∧
      (c.kind.measure object).observed ≠ (c.kind.measure object).desired
  have hsafe : ∀ world, I world →
      c.Clean config world.1 ∧ (Trace.changes world.1).Nodup := by
    rintro world ⟨polls, htrace, hpolls⟩
    obtain ⟨hall, hchanges⟩ := hclean.append_reads fun entry hentry =>
      (hpolls entry hentry).imp fun _ h => h.1
    rw [htrace, hchanges]
    exact ⟨hall, honce⟩
  refine ensures_await_pending (I := I) ?_ ⟨[], rfl, List.forall_mem_nil _⟩ ?_ ?_ ?_
  · rintro world object ⟨polls, htrace, hpolls⟩ hread hpending
    refine ⟨(.get id.ns id.name, world.2) :: polls, ?_,
      List.forall_mem_cons.2 ⟨⟨object, ⟨rfl, hread⟩, of_decide_eq_false hpending⟩, hpolls⟩⟩
    show _ :: world.1 = _
    rw [htrace]
    rfl
  · rintro object last after now ⟨polls, htrace, hpolls⟩ hread hconverged
    have hobject : (c.api.get id.ns id.name last.2).1 = .ok object := congrArg (·.1) hread
    have hafter : after.1 = (.get id.ns id.name, last.2) :: last.1 := (congrArg (·.2.1) hread).symm
    refine ⟨rfl, (.get id.ns id.name, last.2) :: polls, ⟨?_, hpolls, fun hnone => ?_⟩, ?_⟩
    · exact ⟨_, rfl, object, ⟨rfl, hobject⟩, of_decide_eq_true hconverged⟩
    · rw [List.length_cons, List.length_eq_zero_iff.2 (List.eq_nil_iff_forall_not_mem.2 ?_)]
      intro entry hentry
      obtain ⟨shown, -, hne⟩ := hpolls entry hentry
      rw [Kind.measure, hnone shown] at hne
      exact hne rfl
    · rw [Session.waited_world, hafter, htrace]
      rfl
  · intro failure last after now hlast hread
    have hfailure : (c.api.get id.ns id.name last.2).1 = .error failure := congrArg (·.1) hread
    have hafter : after.1 = (.get id.ns id.name, last.2) :: last.1 := (congrArg (·.2.1) hread).symm
    obtain ⟨hall, hnodup⟩ := hsafe last hlast
    rw [Session.waited_world, hafter]
    exact disciplined_of_unread hall hnodup hfailure
  · intro halt world now hworld
    obtain ⟨hall, hnodup⟩ := hsafe world hworld
    exact disciplined_of_clean hall hnodup

/-- Reading the object adds one reading to the calls. -/
theorem ensures_read_traced (hid : session.resource.id = some id)
    (hclean : c.Clean config session.world.1) (honce : (Trace.changes session.world.1).Nodup) :
    Ensures c.traced.read
      (fun _ after => ∃ last object, c.Reads id last object ∧
        after.world.1 = last :: session.world.1 ∧
        after.resource = ⟨some id, c.kind.flatten object session.resource.config⟩)
      (fun halt after => c.Disciplined config (.error halt) after.world.1) session := by
  refine ensures_read (fun hnone => nomatch hnone.symm.trans hid) (Resource.forall_id hid ?_)
  rw [ensures_call]
  refine ⟨fun object hobject => ?_, fun failure hfailure => ?_⟩
  · exact ⟨(.get id.ns id.name, session.world.2), object, ⟨rfl, hobject⟩, rfl, by rw [← hid]; rfl⟩
  · exact disciplined_of_unread hclean honce hfailure

/-- A wait and a reading add at least two readings to the calls. -/
theorem ensures_settle_read_traced (hid : session.resource.id = some id)
    (hclean : c.Clean config session.world.1) (honce : (Trace.changes session.world.1).Nodup)
    (limit : Duration) :
    Ensures (do
        c.traced.settle id limit
        c.traced.read)
      (fun _ after => ∃ polls last object, c.Polled id polls ∧ c.Reads id last object ∧
        after.world.1 = last :: (polls ++ session.world.1) ∧
        after.resource = ⟨some id, c.kind.flatten object session.resource.config⟩)
      (fun halt after => c.Disciplined config (.error halt) after.world.1) session := by
  rw [ensures_bind]
  refine (ensures_settle_polled hclean honce limit).mono ?_ fun _ _ hstopped => hstopped
  rintro _ settled ⟨hresource, polls, hpolls, htrace⟩
  obtain ⟨hall, hchanges⟩ := hclean.append_reads hpolls.reads
  rw [← htrace] at hall hchanges
  refine (ensures_read_traced (hresource ▸ hid) hall (hchanges ▸ honce)).mono ?_
    fun _ _ hstopped => hstopped
  rintro _ after ⟨last, object, hlast, hafter, hknown⟩
  exact ⟨polls, last, object, hpolls, hlast, by rw [hafter, htrace], by rw [hknown, hresource]⟩

end Readings

/-! ## Demands -/

section Demands

variable {session : Session σ} {new : Tree}

theorem clean_nil : c.Clean config [] := List.forall_mem_nil _

/-- Nothing has been sent by an operation that stops before its first call. -/
theorem disciplined_nil {result : Except Halt Unit} : c.Disciplined config result [] :=
  disciplined_of_clean clean_nil List.nodup_nil

/-- A creation sends one creation, and once that has been accepted it waits and reads. -/
theorem create_completes (c : Controller α σ) (session : Session σ) :
    Ensures c.traced.create
      (fun value after => c.Completes session .create after ∧
        c.Disciplined session.resource.config (.ok value) after.world.1)
      (fun halt after => c.Disciplined session.resource.config (.error halt) after.world.1)
      session.traced := by
  refine ensures_create (fun _ _ => disciplined_nil) fun ns placed hasked => ?_
  have hasked : c.asked session.resource.config = .ok (ns, placed) := hasked
  let sent : Call × σ := (.create ns ((c.kind.metadata placed).name.getD ""), session.world)
  have hanswer : c.answer session.resource.config sent =
      (c.api.create ns placed session.world).1.map some := by
    show (c.created session.resource.config session.world).map some = _
    rw [created, hasked]
    rfl
  have honce : (Trace.changes [sent]).Nodup := List.nodup_singleton _
  obtain ⟨haccepted, hrefused⟩ := disciplined_of_answer hanswer clean_nil honce
  rw [ensures_call]
  refine ⟨fun made hmade => ?_, hrefused⟩
  have hclean : c.Clean session.resource.config [sent] := haccepted made hmade
  refine ⟨fun id hid => ?_, fun failure _ => disciplined_of_clean hclean honce⟩
  refine (ensures_settle_read_traced rfl hclean honce _).mono ?_ fun _ _ hstopped => hstopped
  rintro _ after ⟨polls, last, object, hpolls, hlast, htrace, hresource⟩
  refine ⟨.create hasked hmade hid hpolls hlast htrace hresource, ?_⟩
  rw [htrace]
  exact disciplined_of_polled hclean honce hpolls hlast

/-- Reading sends one call. -/
theorem read_completes (c : Controller α σ) (session : Session σ) :
    Ensures c.traced.read
      (fun value after => c.Completes session .read after ∧
        c.Disciplined session.resource.config (.ok value) after.world.1)
      (fun halt after => c.Disciplined session.resource.config (.error halt) after.world.1)
      session.traced := by
  cases hid : session.resource.id with
  | none =>
      exact ensures_read (fun _ => disciplined_nil) fun _ hother => nomatch hid.symm.trans hother
  | some id =>
      have honce : (Trace.changes ([] : Trace σ)).Nodup := List.nodup_nil
      refine (ensures_read_traced hid clean_nil honce).mono ?_ fun _ _ hstopped => hstopped
      rintro _ after ⟨last, object, hlast, htrace, hresource⟩
      obtain ⟨hclean, hchanges⟩ : c.Clean session.resource.config [last] ∧
          Trace.changes [last] = [] :=
        clean_of_reads (List.forall_mem_singleton.2 ⟨object, hlast⟩)
      refine ⟨.read hid hlast htrace hresource, ?_⟩
      rw [htrace]
      exact disciplined_of_clean hclean (hchanges ▸ List.nodup_nil)

/-- The readings that an update takes before it submits its edits. -/
def fetches (c : Controller α σ) (id : Identity) (planned : List Json.Edit) (world : σ) :
    Trace σ :=
  if planned.any (Change.addsWholeMap c.kind.mutablePaths) then [(.get id.ns id.name, world)]
  else []

/-- The object is read before the edits are submitted exactly if one of them adds a whole map. -/
theorem ensures_rebased_traced {planned : List Json.Edit} :
    Ensures (c.traced.rebased id planned)
      (fun edits after => c.spared id planned session.world = .ok edits ∧
        after.resource = session.resource ∧ c.Clean config after.world.1 ∧
        after.world.1 = c.fetches id planned session.world)
      (fun halt after => c.Disciplined config (.error halt) after.world.1) session.traced := by
  refine ensures_rebased (fun hmap => ?_) fun hplain => ?_
  · have hspared : c.spared id planned session.world =
        (c.api.get id.ns id.name session.world).1.map fun live =>
          Change.rebase c.kind.mutablePaths (c.kind.toJson live) planned := if_pos hmap
    have hfetches : c.fetches id planned session.world =
        [(.get id.ns id.name, session.world)] := if_pos hmap
    rw [ensures_call, hspared, hfetches]
    refine ⟨fun live hlive => ?_, fun failure hfailure => ?_⟩
    · have hlive : (c.api.get id.ns id.name session.world).1 = .ok live := hlive
      refine ⟨?_, rfl, clean_cons (Reads.answer ⟨rfl, hlive⟩) clean_nil, rfl⟩
      rw [hlive]
      rfl
    · exact disciplined_of_unread clean_nil List.nodup_nil hfailure
  · have hadds : ¬ planned.any (Change.addsWholeMap c.kind.mutablePaths) = true :=
      Bool.eq_false_iff.1 hplain
    exact ⟨if_neg hadds, rfl, clean_nil, (if_neg hadds).symm⟩

theorem changes_fetches {planned : List Json.Edit} (world : σ) :
    Trace.changes (c.fetches id planned world) = [] := by
  unfold fetches
  split
  · rfl
  · rfl

/-- A patch is the only change that has been submitted. -/
theorem ensures_submit_traced {session : Session (Trace σ × σ)} {edits : List Json.Edit}
    (hclean : c.Clean config session.world.1) (hchanges : Trace.changes session.world.1 = []) :
    Ensures (c.traced.submit id edits)
      (fun _ after => c.Clean config after.world.1 ∧
        after.world.1 = (.patch id.ns id.name (Json.Edit.listToJson edits), session.world.2) ::
          session.world.1)
      (fun halt after => c.Disciplined config (.error halt) after.world.1) session := by
  let sent : Call × σ := (.patch id.ns id.name (Json.Edit.listToJson edits), session.world.2)
  have hanswer : c.answer config sent = (c.api.patch id.ns id.name (Json.Edit.listToJson edits)
      session.world.2).1.map some := rfl
  have honce : (Trace.changes (sent :: session.world.1)).Nodup := by
    show (CallKind.patch :: Trace.changes session.world.1).Nodup
    rw [hchanges]
    exact List.nodup_singleton _
  obtain ⟨haccepted, hrefused⟩ := disciplined_of_answer hanswer hclean honce
  rw [ensures_submit, ensures_call]
  exact ⟨fun object hobject => ⟨haccepted object hobject, rfl⟩, hrefused⟩

/-- Edits are submitted in one patch, if there are any. -/
theorem ensures_submitted_traced {session : Session (Trace σ × σ)} {edits : List Json.Edit}
    (hclean : c.Clean config session.world.1) (hchanges : Trace.changes session.world.1 = []) :
    Ensures (c.traced.submitted id edits)
      (fun _ after => c.Clean config after.world.1 ∧ (Trace.changes after.world.1).Nodup ∧
        after.world.1 = (if edits.isEmpty then []
          else [(.patch id.ns id.name (Json.Edit.listToJson edits), session.world.2)]) ++
            session.world.1)
      (fun halt after => c.Disciplined config (.error halt) after.world.1) session := by
  refine ensures_submitted (fun hnil => ?_) fun hne => ?_
  · subst hnil
    exact ⟨hclean, hchanges ▸ List.nodup_nil, rfl⟩
  · refine (ensures_submit_traced hclean hchanges).mono ?_ fun _ _ hstopped => hstopped
    rintro _ after ⟨hafter, htrace⟩
    refine ⟨hafter, ?_, ?_⟩
    · rw [htrace]
      show (CallKind.patch :: Trace.changes session.world.1).Nodup
      rw [hchanges]
      exact List.nodup_singleton _
    · rw [htrace, if_neg (mt List.isEmpty_iff.1 hne)]
      rfl

/-- Edits are left after the object has been read exactly if some were planned. -/
theorem isEmpty_of_spared {old new : Tree} {planned edits : List Json.Edit} {world : σ}
    (hkind : c.kind.Managed root key) (hplan : c.kind.plan old new = .ok planned)
    (hspared : c.spared id planned world = .ok edits) : edits.isEmpty = planned.isEmpty := by
  unfold spared at hspared
  split at hspared
  · obtain ⟨live, -, rfl⟩ := Steps.map_eq_ok_iff.1 hspared
    rw [Bool.eq_iff_iff, List.isEmpty_iff, List.isEmpty_iff]
    exact hkind.lawful.rebase_edits_eq_nil_iff _ hplan
  · rw [Except.ok.inj hspared]

/-- An update reads the object before it submits its edits if one of them adds a whole map, submits
them if there are any, and then waits and reads. -/
theorem update_completes (hkind : c.kind.Managed root key) (session : Session σ) (new : Tree) :
    Ensures (c.traced.update new)
      (fun value after => c.Completes session (.update new) after ∧
        c.Disciplined session.resource.config (.ok value) after.world.1)
      (fun halt after => c.Disciplined session.resource.config (.error halt) after.world.1)
      session.traced := by
  refine ensures_update (fun _ => disciplined_nil) fun id hid =>
    ⟨fun _ _ => disciplined_nil, fun planned hplan => ?_⟩
  have hplan : c.kind.plan session.resource.config new = .ok planned := hplan
  refine ensures_rebased_traced.mono ?_ fun _ _ hstopped => hstopped
  rintro edits ready ⟨hspared, -, hclean, hfetched⟩
  have hempty := isEmpty_of_spared hkind hplan hspared
  refine (ensures_submitted_traced hclean (hfetched ▸ changes_fetches _)).mono ?_
    fun _ _ hstopped => hstopped
  rintro _ sent ⟨hsent, honce, hpatched⟩
  let taken : Session (Trace σ × σ) := { sent with resource := c.desired session.resource new }
  have hdesired : taken.resource.id = some id := hid
  refine (ensures_settle_read_traced hdesired hsent honce _).mono ?_ fun _ _ hstopped => hstopped
  rintro _ after ⟨polls, last, object, hpolls, hlast, htrace, hresource⟩
  refine ⟨.update ready.world.2 hid hplan hspared hpolls hlast ?_ hresource, ?_⟩
  · rw [htrace, hpatched, hfetched, hempty]
    rfl
  · rw [htrace]
    exact disciplined_of_polled hsent honce hpolls hlast

/-- The drain of a deletion is submitted and then waited for. -/
theorem ensures_drained_traced (c : Controller α σ) (id : Identity) (session : Session σ) :
    Ensures (c.traced.drained id)
      (fun _ after => c.Clean config after.world.1 ∧
        (CallKind.delete :: Trace.changes after.world.1).Nodup ∧
        ((c.kind.drain = none ∧ after.world = ([], session.world)) ∨
          ∃ drain polls, c.kind.drain = some drain ∧ c.Polled id polls ∧ after.world.1 =
            polls ++ [(.patch id.ns id.name (Json.Edit.listToJson drain), session.world)]))
      (fun halt after => c.Disciplined config (.error halt) after.world.1) session.traced := by
  refine ensures_drained
    (fun hnone => ⟨clean_nil, List.nodup_singleton _, .inl ⟨hnone, rfl⟩⟩) fun drain hdrain => ?_
  refine (ensures_submit_traced clean_nil rfl).mono ?_ fun _ _ hstopped => hstopped
  rintro _ submitted ⟨hclean, htrace⟩
  have hchanges : Trace.changes submitted.world.1 = [.patch] := by
    rw [htrace]
    rfl
  refine (ensures_settle_polled hclean (hchanges ▸ List.nodup_singleton _) _).mono ?_
    fun _ _ hstopped => hstopped
  rintro _ settled ⟨-, polls, hpolls, hsettled⟩
  obtain ⟨hall, hsame⟩ := hclean.append_reads hpolls.reads
  rw [← hsettled] at hall hsame
  refine ⟨hall, ?_, .inr ⟨drain, polls, hdrain, hpolls, hsettled.trans (by rw [htrace]; rfl)⟩⟩
  rw [hsame, hchanges]
  decide

/-- A deletion is sent at once where the kind asks for no drain. -/
theorem delete_completes (c : Controller α σ) (session : Session σ) :
    Ensures c.traced.delete
      (fun value after => c.Completes session .delete after ∧
        c.Disciplined session.resource.config (.ok value) after.world.1)
      (fun halt after => c.Disciplined session.resource.config (.error halt) after.world.1)
      session.traced := by
  refine ensures_delete (fun _ => disciplined_nil) fun id hid => ?_
  refine (c.ensures_drained_traced id session).mono ?_ fun _ _ hstopped => hstopped
  rintro _ ready ⟨hclean, honce, hready⟩
  let sent : Call × σ := (.delete id.ns id.name c.kind.propagation, ready.world.2)
  have hanswer : c.answer session.resource.config sent =
      (c.api.delete id.ns id.name c.kind.propagation ready.world.2).1.map fun _ => none := rfl
  obtain ⟨haccepted, hrefused⟩ := disciplined_of_answer hanswer hclean honce
  rw [ensures_call]
  refine ⟨fun done hdone => ⟨?_, disciplined_of_clean (haccepted done hdone) honce⟩, hrefused⟩
  rcases hready with ⟨hdrain, hworld⟩ | ⟨drain, polls, hdrain, hpolls, htrace⟩
  · refine .deleted hid hdrain ?_ rfl
    show sent :: ready.world.1 = _
    rw [show sent = (.delete id.ns id.name c.kind.propagation, ready.world.2) from rfl, hworld]
  · refine .drained ready.world.2 hid hdrain hpolls ?_ rfl
    show sent :: ready.world.1 = _
    rw [htrace]

end Demands

end Controller

/-- Whatever a control API answers, every call of an operation before its last one has succeeded,
and if the last one has failed the operation returns its failure. At most one creation, one patch
and one deletion are sent, and the calls of an operation that succeeds have the shape that its
demand asks for. -/
theorem calls_disciplined {c : Controller α σ} (hkind : c.kind.Managed root key)
    (session : Session σ) (demand : Demand) :
    let traced := (demand.perform c.traced).run session.traced
    Prod.map id Session.untraced traced = (demand.perform c).run session ∧
      c.Disciplined session.resource.config traced.1 traced.2.world.1 ∧
      (traced.1 = .ok () → c.Completes session demand traced.2) := by
  have hensures : Ensures (demand.perform c.traced)
      (fun value after => c.Completes session demand after ∧
        c.Disciplined session.resource.config (.ok value) after.world.1)
      (fun halt after => c.Disciplined session.resource.config (.error halt) after.world.1)
      session.traced := by
    cases demand with
    | create => exact c.create_completes session
    | read => exact c.read_completes session
    | update new => exact Controller.update_completes hkind session new
    | delete => exact c.delete_completes session
  refine ⟨demand.traces_perform session.traced, ?_⟩
  refine Ensures.result (P := fun result after =>
    c.Disciplined session.resource.config result after.world.1 ∧
      (result = .ok () → c.Completes session demand after)) ?_
  exact hensures.mono (fun _ _ hafter => ⟨hafter.2, fun _ => hafter.1⟩)
    fun _ _ hstopped => ⟨hstopped, fun hok => nomatch hok⟩

/-- An API that answers one call after another with what a script says. -/
def ControlApi.scripted : ControlApi α (List (Except Failure α)) :=
  let next (script : List (Except Failure α)) : Except Failure α × List (Except Failure α) :=
    match script with
    | answer :: rest => (answer, rest)
    | [] => (.error (.invalidIdentity ""), [])
  { create := fun _ _ => next
    get := fun _ _ => next
    patch := fun _ _ _ => next
    delete := fun _ _ _ script => Prod.map (Except.map fun _ => ()) id (next script) }

namespace Relabelled

/-- A deployment that asks for one pod and shows some. -/
def shown (replicas : Int32) : Deployment where
  metadata := { name := some "web", ns := some "default" }
  spec := some {}
  status := some { replicas := some replicas }

/-- A tree with labels. -/
def tree (labels : Block) : Tree :=
  .obj [("metadata", Block.singular [("labels", .obj labels), ("name", .str "web")]),
    ("spec", Block.singular [("template", Block.singular [("spec", Block.singular [])])])]

/-- A deployment without labels is known, and the API is going to answer as the script says. -/
def session (script : List (Except Failure Deployment)) :
    Session (List (Except Failure Deployment)) :=
  ⟨⟨(Identity.ofText "default/web").toOption,
    Schema.normalize Deployment.kind.schema none (tree [])⟩, script, .start 10⟩

/-- The controller that sends the calls. -/
def controller : Controller Deployment (List (Except Failure Deployment)) :=
  ⟨Deployment.kind, .scripted, Settings.default⟩

/-- The deployment is to get a label. -/
def demand : Demand := .update (tree [("app", .str "web")])

/-- What comes of it, with the calls. -/
def labelled (script : List (Except Failure Deployment)) :=
  (demand.perform controller.traced).run (session script).traced

end Relabelled

open Relabelled in
/-- A whole map is added, so the deployment is read first; then it is patched, read until it shows
the one pod that it asks for, and read once more. If the patch is refused, nothing comes after. -/
theorem calls_disciplined_labelled :
    let refusal := Failure.callFailed .patch "deployment" (.described "forbidden")
    let accepted := [.ok (shown 0), .ok (shown 0), .ok (shown 0), .ok (shown 1), .ok (shown 1)]
    let refused := [.ok (shown 0), .error refusal]
    ((labelled accepted).1 = .ok () ∧
        (labelled accepted).2.world.1.map (·.1.kind) = [.get, .get, .get, .patch, .get] ∧
        controller.Completes (session accepted) demand (labelled accepted).2) ∧
      (labelled refused).1 = .error (.failure refusal) ∧
      (labelled refused).2.world.1.map (·.1.kind) = [.patch, .get] ∧
      controller.Disciplined (session refused).resource.config (labelled refused).1
        (labelled refused).2.world.1 := by
  intro refusal accepted refused
  have hkind : controller.kind.Managed "spec" "spec" := .deployment
  have hok : (labelled accepted).1 = .ok () := by decide +kernel
  have hstop : (labelled refused).1 = .error (.failure refusal) := by decide +kernel
  have hcalls : (labelled accepted).2.world.1.map (·.1.kind) =
      [.get, .get, .get, .patch, .get] := by
    decide +kernel
  have hcalls' : (labelled refused).2.world.1.map (·.1.kind) = [.patch, .get] := by
    decide +kernel
  have hcompletes : controller.Completes (session accepted) demand (labelled accepted).2 :=
    (calls_disciplined hkind (session accepted) demand).2.2 hok
  refine ⟨⟨hok, hcalls, hcompletes⟩, hstop, hcalls', ?_⟩
  unfold labelled
  exact (calls_disciplined hkind (session refused) demand).2.1

end Reconcile
