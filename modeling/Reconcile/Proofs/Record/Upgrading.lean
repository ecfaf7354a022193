import Mathlib.Data.List.Basic
import Reconcile.Proofs.Except.Steps
import Reconcile.Record.Upgrade

/-!
# Upgrading what is up to date

Whatever the steps are, nothing changes what they leave alone. A record of the latest version is
left alone since no step leads further from there, so that a record that was upgraded is not changed
by upgrading it once more (`Upgrades.upgradeRecord_again`). That rests on the version being the
number of the steps, which it is as long as 32 bits hold that.
-/

namespace Reconcile.Upgrades

variable {upgrades : Upgrades} {attributes : Attributes} {version later : Nat}
  {record upgraded : Record}

theorem upgrade_of_isEmpty (h : attributes.isEmpty = true) (version : Nat) :
    upgrades.upgrade version attributes = .ok attributes := by
  rw [upgrade, h, if_pos rfl]

/-- Attributes that are not empty are upgraded by the steps from their version on. -/
theorem upgrade_eq (h : attributes.isEmpty = false) (hversion : version ≤ upgrades.latest) :
    upgrades.upgrade version attributes =
      .ok ((upgrades.steps.drop version).foldl (fun attrs step => step attrs) attributes) := by
  rw [upgrade, h, if_neg Bool.false_ne_true, if_neg (Nat.not_lt.2 hversion)]

/-- Attributes that the steps from a version on leave alone are not changed by upgrading them from
that version or from a later one. -/
theorem upgrade_eq_self
    (hfixed : ∀ step ∈ upgrades.steps.drop version, step attributes = attributes)
    (hle : version ≤ later) (hlater : later ≤ upgrades.latest) :
    upgrades.upgrade later attributes = .ok attributes := by
  cases hempty : attributes.isEmpty with
  | true => exact upgrade_of_isEmpty hempty later
  | false =>
      have hfold : (upgrades.steps.drop later).foldl (fun attrs step => step attrs) attributes =
          attributes := by
        refine List.foldlRecOn (motive := fun attrs => attrs = attributes) _ _ rfl ?_
        rintro attrs rfl step hstep
        exact hfixed step (List.drop_subset_drop_left _ hle hstep)
      rw [upgrade_eq hempty hlater, hfold]

/-- A record of the latest version is left as it is. -/
theorem upgradeRecord_latest (hsteps : upgrades.steps.length ≤ Record.maxVersion)
    (h : record.version = upgrades.latest) : upgrades.upgradeRecord record = .ok record := by
  have hnone : upgrades.steps.drop upgrades.latest = [] := by
    rw [latest_eq hsteps, List.drop_length]
  have hupgrade : upgrades.upgrade upgrades.latest record.attributes = .ok record.attributes :=
    upgrade_eq_self (hnone ▸ List.forall_mem_nil _) (Nat.le_refl _) (Nat.le_refl _)
  unfold upgradeRecord
  split
  · rfl
  · rw [h, hupgrade, ← h]
    rfl

/-- The version of an upgraded record has 32 bits if that of the record has. -/
theorem version_upgradeRecord_le (hversion : record.version ≤ Record.maxVersion)
    (h : upgrades.upgradeRecord record = .ok upgraded) : upgraded.version ≤ Record.maxVersion := by
  unfold upgradeRecord at h
  split at h
  · obtain rfl := Except.ok.inj h
    exact hversion
  · obtain ⟨attributes, -, hupgraded⟩ := Steps.bind_eq_ok_iff.1 h
    obtain rfl := Except.ok.inj hupgraded
    exact upgrades.latest_le

/-- An upgraded record has the identity that it had, and nothing is left to upgrade in it. -/
theorem upgradeRecord_again (hsteps : upgrades.steps.length ≤ Record.maxVersion)
    (h : upgrades.upgradeRecord record = .ok upgraded) :
    upgraded.id = record.id ∧ upgrades.upgradeRecord upgraded = .ok upgraded := by
  have hbefore := h
  unfold upgradeRecord at h
  split at h
  · obtain rfl := Except.ok.inj h
    exact ⟨rfl, hbefore⟩
  · obtain ⟨attributes, _, h⟩ := Steps.bind_eq_ok_iff.1 h
    obtain rfl := Except.ok.inj h
    exact ⟨rfl, upgradeRecord_latest hsteps rfl⟩

end Reconcile.Upgrades
