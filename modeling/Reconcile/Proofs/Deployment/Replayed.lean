import Mathlib.Data.List.Basic
import Reconcile.Proofs.Deployment.Conserved
import Reconcile.Proofs.Record.Upgrading

/-!
# Upgrades that are run again

Attributes of deployments that were upgraded can be upgraded from their old version again, as when
their version was lost: each of the steps that made them leaves them as they are
(`step_upgraded_eq_self`), since the first one unbinds every key that it moves for good and the
second one adds nothing twice. Records know their version, so whatever the steps are, a record that
was upgraded is not changed by upgrading it once more.
-/

namespace Reconcile.Deployment

open Schema

variable {attributes : Attributes}

/-- Where no key of version 0 is bound, the first step has nothing to do. -/
theorem gatherBlocks_eq_self (h : ∀ {source target counter}, Moves source target counter →
    attributes.get? source = none) : gatherBlocks attributes = attributes := by
  have hname : gatherName attributes = attributes := by
    rw [gatherName, Attributes.rename_eq_missing (h .name)]
    rfl
  have hloose : ∀ key ∈ attributes.keys, looseTemplateField? key = none := by
    intro key hkey
    refine Option.eq_none_iff_forall_ne_some.2 fun rest hrest => ?_
    rw [Dict.mem_keys_iff, h (moves_of_loose hrest)] at hkey
    cases hkey
  have hfold : attributes.keys.foldl moveTemplateField (false, attributes) = (false, attributes) :=
    foldl_unchanged id fun key hkey state => moveTemplateField_of_not_loose (hloose key hkey) state
  rw [gatherBlocks_eq, hname, hfold]
  rfl

/-- Where the new fields are bound, the second step has nothing to do. -/
theorem addDefaults_eq_self (h : ∀ field ∈ newFields, (attributes.get? field.1).isSome) :
    addDefaults attributes = attributes := by
  simp only [newFields, List.forall_mem_cons] at h
  obtain ⟨hpaused, hdeadline, -⟩ := h
  show ((attributes.insertDefault "spec.0.paused" "false").2.insertDefault
    "spec.0.progress_deadline_seconds" "600").2 = attributes
  rw [Attributes.insertDefault_eq_self hpaused, Attributes.insertDefault_eq_self hdeadline]

/-- Nothing is added twice. -/
theorem addDefaults_addDefaults (attributes : Attributes) :
    addDefaults (addDefaults attributes) = addDefaults attributes := by
  refine addDefaults_eq_self ?_
  simp only [newFields, List.forall_mem_cons, get?_addDefaults]
  exact ⟨rfl, rfl, List.forall_mem_nil _⟩

/-- Nothing is moved twice. -/
theorem gatherBlocks_bothSteps (attributes : Attributes) :
    gatherBlocks (bothSteps attributes) = bothSteps attributes :=
  gatherBlocks_eq_self (conserves_bothSteps attributes).vacated

/-- Attributes that were upgraded are left alone by each of the steps that upgraded them. -/
theorem step_upgraded_eq_self (attributes : Attributes) (version : Nat) :
    let steps := upgrades.steps.drop version
    let upgraded := steps.foldl (fun attrs step => step attrs) attributes
    ∀ step ∈ steps, step upgraded = upgraded := by
  -- What the second step has made is left alone by it, and by the first one if that came before.
  match version with
  | 0 =>
      show ∀ step ∈ [gatherBlocks, addDefaults], step (bothSteps attributes) = bothSteps attributes
      simp only [List.forall_mem_cons]
      exact ⟨gatherBlocks_bothSteps attributes, addDefaults_addDefaults _, List.forall_mem_nil _⟩
  | 1 =>
      show ∀ step ∈ [addDefaults], step (addDefaults attributes) = addDefaults attributes
      simp only [List.forall_mem_cons]
      exact ⟨addDefaults_addDefaults attributes, List.forall_mem_nil _⟩
  | version + 2 =>
      have hnone : upgrades.steps.drop (version + 2) = [] := List.drop_nil
      rw [hnone]
      exact List.forall_mem_nil _

/-- Upgrading again changes nothing: neither attributes of a deployment, from the version that they
had or any later one, nor a record, whatever the steps are as long as their number is a version. -/
theorem upgrade_replayed :
    (∀ (attributes : Attributes) (version later : Nat), version ≤ later → later ≤ 2 →
      ∃ upgraded, upgrades.upgrade version attributes = .ok upgraded ∧
        upgrades.upgrade later upgraded = .ok upgraded) ∧
    ∀ (registry : Upgrades) (record upgraded : Record), registry.steps.length ≤ Record.maxVersion →
      registry.upgradeRecord record = .ok upgraded →
        registry.upgradeRecord upgraded = .ok upgraded ∧ upgraded.id = record.id := by
  have hlatest : upgrades.latest = 2 := by decide
  refine ⟨fun attributes version later hle hlater => ?_,
    fun registry record upgraded hsteps h => ?_⟩
  · rw [← hlatest] at hlater
    cases hempty : attributes.isEmpty with
    | true =>
        exact ⟨attributes, Upgrades.upgrade_of_isEmpty hempty version,
          Upgrades.upgrade_of_isEmpty hempty later⟩
    | false =>
        refine ⟨_, Upgrades.upgrade_eq hempty (Nat.le_trans hle hlater), ?_⟩
        exact Upgrades.upgrade_eq_self (step_upgraded_eq_self attributes version) hle hlater
  · exact (Upgrades.upgradeRecord_again hsteps h).symm

/-- Attributes that were upgraded in part are upgraded from version 0 twice, and a record loses all
its attributes in the only step that there is. -/
theorem upgrade_replayed_partial :
    let attributes : Attributes := Dict.ofList
      [("metadata.0.name", ""), ("name", "web"), ("spec.0.template.0.container.#", "1"),
       ("spec.0.template.0.spec.0.container.#", "2")]
    let upgraded : Attributes := Dict.ofList
      [("metadata.#", "1"), ("metadata.0.name", "web"), ("spec.0.paused", "false"),
       ("spec.0.progress_deadline_seconds", "600"), ("spec.0.template.0.spec.0.container.#", "2")]
    let clearing : Upgrades := ⟨"clearing", [fun _ => Dict.empty]⟩
    let cleared : Record := ⟨"prod/web", 1, Dict.empty⟩
    upgrades.upgrade 0 attributes = .ok upgraded ∧ upgrades.upgrade 0 upgraded = .ok upgraded ∧
      clearing.steps.length ≤ Record.maxVersion ∧
      clearing.upgradeRecord ⟨"prod/web", 0, attributes⟩ = .ok cleared ∧
      clearing.upgradeRecord cleared = .ok cleared := by
  intro attributes upgraded clearing cleared
  have hupgrade : upgrades.upgrade 0 attributes = .ok upgraded := by decide +kernel
  have hclear : clearing.upgradeRecord ⟨"prod/web", 0, attributes⟩ = .ok cleared := by
    decide +kernel
  obtain ⟨other, hother, hagain⟩ := upgrade_replayed.1 attributes 0 0 (by decide) (by decide)
  obtain rfl := Except.ok.inj (hother.symm.trans hupgrade)
  exact ⟨hupgrade, hagain, by decide, hclear,
    (upgrade_replayed.2 clearing _ _ (by decide) hclear).1⟩

end Reconcile.Deployment
