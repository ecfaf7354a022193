import Mathlib.Data.List.Basic
import Reconcile.Proofs.Deployment.Upgrades
import Reconcile.Proofs.Record.Upgrading

/-!
# Attributes of version 0 are conserved

The steps from version 0 move values from some keys to others (`Moves`), add a counter for a block
that a value has come to, and give new fields their defaults. `Conserves` says what the attributes
of the latest version bind, key by key, whatever those of version 0 bind: a value is moved unless
its target holds a text already, as in a record that was upgraded in part, and no move meets
another one. `upgrade_conserves` is the proof for both steps.
-/

namespace Reconcile.Deployment

open Schema

variable {attributes : Attributes} {source target counter rest k : String}

/-- A key of version 0 with the key that its value is moved to and the counter of the block where
that lies. -/
inductive Moves : String → String → String → Prop where
  | name : Moves "name" "metadata.0.name" "metadata.#"
  | templateField {rest : String} (hspec : ∀ more, rest ≠ "spec." ++ more)
      (hmetadata : ∀ more, rest ≠ "metadata." ++ more) :
      Moves ("spec.0.template.0." ++ rest) ("spec.0.template.0.spec.0." ++ rest)
        "spec.0.template.0.spec.#"

/-- The fields that version 2 brought, with their defaults. -/
def newFields : List (String × String) :=
  [("spec.0.paused", "false"), ("spec.0.progress_deadline_seconds", "600")]

/-- Attributes bind after the steps from version 0 what they bound before them, at the keys where
the latest version has it. -/
structure Conserves (before after : Attributes) : Prop where
  /-- The keys of version 0 are gone. -/
  vacated : ∀ {source target counter}, Moves source target counter → after.get? source = none
  /-- A value is at its target, unless the target had a text that is not empty. -/
  settled : ∀ {source target counter}, Moves source target counter →
    (before.get? source).isSome →
      after.get? target = ((before.get? target).filter (· ≠ "")).or (before.get? source)
  /-- A counter that was missing is one exactly if a value was moved into its block. -/
  counted : ∀ {source target counter}, Moves source target counter → ∀ s,
    after.get? counter = some s ↔ before.get? counter = some s ∨
      before.get? counter = none ∧ s = "1" ∧ ∃ source target, Moves source target counter ∧
        (before.get? source).isSome ∧ ∀ s, before.get? target = some s → s = ""
  /-- A new field that was missing has its default. -/
  defaulted : ∀ field ∈ newFields,
    after.get? field.1 = some ((before.get? field.1).getD field.2)
  /-- Every other key is as it was. -/
  kept : ∀ k, (∀ target counter, ¬ Moves k target counter) →
    (∀ source counter, Moves source k counter → before.get? source = none) →
    (∀ source target, ¬ Moves source target k) → (∀ field ∈ newFields, k ≠ field.1) →
      after.get? k = before.get? k

/-! ## The moves -/

/-- What is moved besides the name are the loose fields of the template. -/
theorem moves_of_loose (h : looseTemplateField? source = some rest) :
    Moves source (looseTarget rest) (lengthKey podKey) := by
  obtain ⟨rfl, hspec, hmetadata⟩ := looseTemplateField?_eq_some_iff.1 h
  refine .templateField (fun more hmore => ?_) fun more hmore => ?_
  · rw [Text.dropPrefix?_eq_some_iff.2 hmore] at hspec
    cases hspec
  · rw [Text.dropPrefix?_eq_some_iff.2 hmore] at hmetadata
    cases hmetadata

/-- A field of the template that is neither in its metadata nor in its block for the pod is a loose
one. -/
theorem loose_of_moves (hspec : ∀ more, rest ≠ "spec." ++ more)
    (hmetadata : ∀ more, rest ≠ "metadata." ++ more) :
    looseTemplateField? (templatePrefix ++ rest) = some rest := by
  refine looseTemplateField?_eq_some_iff.2 ⟨rfl, ?_, ?_⟩
  · exact Option.eq_none_iff_forall_ne_some.2 fun more hmore =>
      hspec more (Text.dropPrefix?_eq_some_iff.1 hmore)
  · exact Option.eq_none_iff_forall_ne_some.2 fun more hmore =>
      hmetadata more (Text.dropPrefix?_eq_some_iff.1 hmore)

/-- A move is that of the name or that of a loose field. -/
theorem moves_iff : Moves source target counter ↔
    (source = "name" ∧ target = "metadata.0.name" ∧ counter = "metadata.#") ∨
      ∃ rest, looseTemplateField? source = some rest ∧ target = looseTarget rest ∧
        counter = lengthKey podKey := by
  constructor
  · intro h
    cases h with
    | name => exact .inl ⟨rfl, rfl, rfl⟩
    | templateField hspec hmetadata =>
        exact .inr ⟨_, loose_of_moves hspec hmetadata, rfl, rfl⟩
  · rintro (⟨rfl, rfl, rfl⟩ | ⟨rest, hloose, rfl, rfl⟩)
    · exact .name
    · exact moves_of_loose hloose

/-! ## What both steps bind -/

/-- The metadata have one element if they had no counter and the name was moved. -/
theorem get?_gatherName_counter_iff {s : String} :
    (gatherName attributes).get? "metadata.#" = some s ↔
      attributes.get? "metadata.#" = some s ∨ attributes.get? "metadata.#" = none ∧ s = "1" ∧
        (attributes.rename "name" "metadata.0.name").1 = .moved := by
  rw [gatherName, get?_countBlock_eq_some_iff, get?_rename_name_counter, decide_eq_true_eq]

/-- The source of a move is vacant after both steps. -/
theorem vacated_bothSteps (h : Moves source target counter) :
    (bothSteps attributes).get? source = none := by
  obtain ⟨rfl, -, -⟩ | ⟨rest, hloose, -, -⟩ := moves_iff.1 h
  · have hname : (gatherName attributes).get? "name" = none := by
      rw [gatherName, get?_countBlock, if_neg fun hk => absurd hk.2 (by decide),
        Attributes.get?_rename (by decide), if_pos rfl]
    have htemplate : ¬ Under "spec.0.template.0" "name" := fun hk =>
      (under_root_of_spec (under_spec_of_template hk)).disjoint_root (by decide) (by decide)
        (by decide) (.refl "name")
    rw [bothSteps, get?_addDefaults, if_neg (by decide), if_neg (by decide),
      get?_gatherBlocks_of_not_template htemplate, hname]
  · rw [get?_bothSteps_of_template (under_template_of_loose hloose),
      get?_gatherBlocks_source hloose]

/-- The destination of a move has a text of its own or else what was at the source. -/
theorem settled_bothSteps (h : Moves source target counter)
    (hbound : (attributes.get? source).isSome) :
    (bothSteps attributes).get? target =
      ((attributes.get? target).filter (· ≠ "")).or (attributes.get? source) := by
  obtain ⟨rfl, rfl, -⟩ | ⟨rest, hloose, rfl, -⟩ := moves_iff.1 h
  · rw [get?_bothSteps_of_metadata (.inr ⟨"0.name", by decide⟩), gatherName, get?_countBlock,
      if_neg fun hk => absurd hk.2 (by decide),
      Attributes.get?_rename_target (by decide) hbound]
  · rw [get?_bothSteps_of_template (under_template_of_podKey (under_looseTarget rest)),
      get?_gatherBlocks_target hloose,
      Attributes.get?_rename_target (ne_looseTarget hloose rest) hbound]

/-- A counter of a move is set where it was missing and something was moved, and stays otherwise. -/
theorem counted_bothSteps (h : Moves source target counter) (s : String) :
    (bothSteps attributes).get? counter = some s ↔ attributes.get? counter = some s ∨
      attributes.get? counter = none ∧ s = "1" ∧ ∃ source target, Moves source target counter ∧
        (attributes.get? source).isSome ∧ ∀ s, attributes.get? target = some s → s = "" := by
  obtain ⟨-, -, rfl⟩ | ⟨rest, -, -, rfl⟩ := moves_iff.1 h
  · rw [get?_bothSteps_of_metadata (.inr ⟨"#", by decide⟩), get?_gatherName_counter_iff]
    refine or_congr_right (and_congr_right fun _ => and_congr_right fun _ => ?_)
    rw [Attributes.rename_eq_moved_iff (by decide)]
    constructor
    · exact fun hmoved => ⟨_, _, .name, hmoved⟩
    · rintro ⟨source, target, hmoves, hmoved⟩
      obtain ⟨rfl, rfl, -⟩ | ⟨rest, -, -, hcounter⟩ := moves_iff.1 hmoves
      · exact hmoved
      · exact absurd hcounter (by decide)
  · rw [get?_bothSteps_of_template (under_template_of_podKey (.lengthKey podKey)),
      get?_gatherBlocks_counter_iff]
    refine or_congr_right (and_congr_right fun _ => and_congr_right fun _ => ?_)
    constructor
    · rintro ⟨key, rest, hloose, hmoved⟩
      exact ⟨key, _, moves_of_loose hloose,
        (Attributes.rename_eq_moved_iff (ne_looseTarget hloose rest)).1 hmoved⟩
    · rintro ⟨source, target, hmoves, hmoved⟩
      obtain ⟨-, -, hcounter⟩ | ⟨rest, hloose, rfl, -⟩ := moves_iff.1 hmoves
      · exact absurd hcounter (by decide)
      · exact ⟨source, rest, hloose,
          (Attributes.rename_eq_moved_iff (ne_looseTarget hloose rest)).2 hmoved⟩

/-- A new field has its default unless it was there before. -/
theorem defaulted_bothSteps : ∀ field ∈ newFields,
    (bothSteps attributes).get? field.1 = some ((attributes.get? field.1).getD field.2) := by
  simp only [newFields, List.forall_mem_cons]
  exact ⟨get?_bothSteps_paused, get?_bothSteps_deadline, List.forall_mem_nil _⟩

/-- A key that no move and no default is about keeps its value. -/
theorem kept_bothSteps (hsource : ∀ target counter, ¬ Moves k target counter)
    (htarget : ∀ source counter, Moves source k counter → attributes.get? source = none)
    (hcounter : ∀ source target, ¬ Moves source target k)
    (hnew : ∀ field ∈ newFields, k ≠ field.1) :
    (bothSteps attributes).get? k = attributes.get? k := by
  have hname : k ≠ "name" := by
    rintro rfl
    exact hsource _ _ .name
  have hmetadata : k ≠ "metadata.#" := by
    rintro rfl
    exact hcounter _ _ .name
  have hpod : k ≠ lengthKey podKey := by
    rintro rfl
    have hloose : looseTemplateField? (templatePrefix ++ "") = some "" := by decide
    exact hcounter _ _ (moves_of_loose hloose)
  simp only [newFields, List.forall_mem_cons] at hnew
  obtain ⟨hpaused, hdeadline, -⟩ := hnew
  have hnamed : (gatherName attributes).get? k = attributes.get? k := by
    rw [gatherName, get?_countBlock, if_neg fun hk => hmetadata hk.2,
      Attributes.get?_rename (by decide), if_neg hname, if_neg]
    -- A name that is moved there is no name that is missing.
    rintro ⟨rfl, hmoved⟩
    have hbound := ((Attributes.rename_eq_moved_iff (by decide)).1 hmoved).1
    rw [htarget _ _ .name] at hbound
    cases hbound
  rw [bothSteps, get?_addDefaults, if_neg hpaused, if_neg hdeadline, gatherBlocks_eq,
    get?_countBlock, if_neg fun hk => hpod hk.2, get?_foldl_of_ne, hnamed]
  intro key hkey rest hloose
  refine ⟨?_, ?_⟩
  · rintro rfl
    exact hsource _ _ (moves_of_loose hloose)
  · rintro rfl
    have hnone := htarget _ _ (moves_of_loose hloose)
    rw [Dict.mem_keys_iff, get?_gatherName_of_spec (under_spec_of_loose hloose), hnone] at hkey
    cases hkey

/-- Both steps conserve what attributes of version 0 bind. -/
theorem conserves_bothSteps (attributes : Attributes) :
    Conserves attributes (bothSteps attributes) where
  vacated := vacated_bothSteps
  settled := settled_bothSteps
  counted := counted_bothSteps
  defaulted := defaulted_bothSteps
  kept := fun _ => kept_bothSteps

/-- Attributes of version 0 that are not empty are always upgraded, and what they bind is
conserved. -/
theorem upgrade_conserves (h : attributes.isEmpty = false) :
    ∃ upgraded, upgrades.upgrade 0 attributes = .ok upgraded ∧ Conserves attributes upgraded :=
  ⟨bothSteps attributes, Upgrades.upgrade_eq h (Nat.zero_le _), conserves_bothSteps attributes⟩

/-- In a record that was upgraded in part the name goes to an empty target, a counter of containers
gives way to the one that is there already, and a field that is called like its block is moved. -/
theorem upgrade_conserves_partial :
    let attributes : Attributes := Dict.ofList
      [("metadata.0.name", ""), ("name", "web"), ("other", "x"), ("spec.0.paused", "true"),
       ("spec.0.template.0.container.#", "1"), ("spec.0.template.0.metadata.#", "1"),
       ("spec.0.template.0.spec", "y"), ("spec.0.template.0.spec.0.container.#", "2")]
    let upgraded : Attributes := Dict.ofList
      [("metadata.#", "1"), ("metadata.0.name", "web"), ("other", "x"), ("spec.0.paused", "true"),
       ("spec.0.progress_deadline_seconds", "600"), ("spec.0.template.0.metadata.#", "1"),
       ("spec.0.template.0.spec.#", "1"), ("spec.0.template.0.spec.0.container.#", "2"),
       ("spec.0.template.0.spec.0.spec", "y")]
    attributes.isEmpty = false ∧ upgrades.upgrade 0 attributes = .ok upgraded ∧
      Conserves attributes upgraded := by
  intro attributes upgraded
  have hnonempty : attributes.isEmpty = false := by decide
  have hupgrade : upgrades.upgrade 0 attributes = .ok upgraded := by decide +kernel
  obtain ⟨other, hother, hconserves⟩ := upgrade_conserves hnonempty
  obtain rfl := Except.ok.inj (hother.symm.trans hupgrade)
  exact ⟨hnonempty, hupgrade, hconserves⟩

end Reconcile.Deployment
