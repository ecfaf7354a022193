import Mathlib.Data.Set.Insert
import Reconcile.Proofs.Cluster.Faithful
import Reconcile.Proofs.Resource.Stored
import Reconcile.Proofs.Store.Rows

/-!
# Stores that keep track of objects

A row is sound if it is loaded as a resource of its kind, with the identity that it is found under.
A store keeps track of the places of objects if every row is sound and every place has one. There
is one lemma for each change of a store that says when it still does: a row that is loaded may be
written anywhere, and one may be dropped once its object is gone.
-/

namespace Reconcile

variable {α : Type} {kind : Kind α} {root key : String}

/-! ## Sound rows -/

/-- A row is loaded as a resource of a kind, and the identity of this resource has the text that the
row is found under. -/
def Row.Loads (row : Row) (kind : Kind α) (id : String) : Prop :=
  ∃ found identity config, Store.decode kind.name id row = .ok found ∧
    Resource.load kind found.record = .ok ⟨some identity, config⟩ ∧ identity.text = id

/-- A row is one of deployments or one of roles, and is loaded as such. -/
def Row.Sound (row : Row) (kind id : String) : Prop :=
  kind = Deployment.kind.name ∧ row.Loads Deployment.kind id ∨
    kind = Role.kind.name ∧ row.Loads Role.kind id

/-- A row of a kind is sound if it is loaded as one of this kind. -/
theorem Kind.Managed.sound_iff (hkind : kind.Managed root key) {row : Row} {id : String} :
    row.Sound kind.name id ↔ row.Loads kind id := by
  have hne : Deployment.kind.name ≠ Role.kind.name := by decide
  cases hkind with
  | deployment =>
      refine ⟨fun h => ?_, fun h => .inl ⟨rfl, h⟩⟩
      rcases h with ⟨_, h⟩ | ⟨hname, _⟩
      · exact h
      · exact absurd hname hne
  | role =>
      refine ⟨fun h => ?_, fun h => .inr ⟨rfl, h⟩⟩
      rcases h with ⟨hname, _⟩ | ⟨_, h⟩
      · exact absurd hname hne.symm
      · exact h

/-- The row that is written for a record is loaded as the record is. -/
theorem Row.loads_ofRecord {record : Record} {identity : Identity} {config : Tree}
    (hload : Resource.load kind record = .ok ⟨some identity, config⟩)
    (hid : identity.text = record.id) (hversion : record.version ≤ Record.maxVersion)
    (now : ClockTime) : (Row.ofRecord record now).Loads kind record.id :=
  ⟨⟨record, now⟩, identity, config, Store.decode_ofRecord kind.name hversion now.2, hload, hid⟩

/-! ## Stores that keep track of places -/

/-- A store keeps track of places if each of them has a row under the text of its identity, and
every row is sound. -/
structure Store.Tracks (store : Store) (places : Set Place) : Prop where
  recorded : ∀ place ∈ places, ∃ id : Identity, id.place place.kind = place ∧
    (store.row? place.kind id.text).isSome
  sound : ∀ kind id row, store.row? kind id = some row → row.Sound kind id

namespace Store.Tracks

variable {store : Store} {places fewer : Set Place} {id : Identity}

/-- Nothing has to be tracked where there is nothing. -/
theorem empty : Store.empty.Tracks ∅ :=
  ⟨fun _ hplace => hplace.elim, fun _ _ _ hrow => nomatch hrow⟩

/-- What keeps track of places keeps track of fewer ones. -/
theorem mono (h : store.Tracks places) (hsub : fewer ⊆ places) : store.Tracks fewer :=
  ⟨fun place hplace => h.recorded place (hsub hplace), h.sound⟩

/-- A row that is loaded may be written anywhere. -/
theorem setRow (h : store.Tracks places) (hkind : kind.Managed root key) {id : String} {row : Row}
    (hrow : row.Loads kind id) : (store.setRow kind.name id row).Tracks places := by
  refine ⟨fun place hplace => ?_, fun k i other hother => ?_⟩
  · obtain ⟨identity, hidentity, hrecorded⟩ := h.recorded place hplace
    refine ⟨identity, hidentity, ?_⟩
    rw [Store.row?_setRow]
    split
    · rfl
    · exact hrecorded
  · rw [Store.row?_setRow] at hother
    split at hother
    · rename_i hat
      obtain ⟨rfl, rfl⟩ := hat
      obtain rfl := Option.some.inj hother
      exact hkind.sound_iff.2 hrow
    · exact h.sound k i other hother

/-- A place whose row has been written is kept track of. -/
theorem insert_place (h : store.Tracks places) {kind : String}
    (hrow : (store.row? kind id.text).isSome) : store.Tracks (insert (id.place kind) places) := by
  refine ⟨fun place hplace => ?_, h.sound⟩
  rcases hplace with rfl | hplace
  · exact ⟨id, rfl, hrow⟩
  · exact h.recorded place hplace

/-- The row of a place may be dropped once there is no object any more. -/
theorem delete (h : store.Tracks places) {kind : String} (hgone : id.place kind ∉ places) :
    (store.delete kind id.text).Tracks places := by
  refine ⟨fun place hplace => ?_, fun k i row hrow => ?_⟩
  · obtain ⟨identity, hidentity, hrecorded⟩ := h.recorded place hplace
    refine ⟨identity, hidentity, ?_⟩
    rw [Store.row?_delete, if_neg]
    · exact hrecorded
    · rintro ⟨rfl, htext⟩
      refine hgone ?_
      rw [← Identity.text_inj htext, hidentity]
      exact hplace
  · rw [Store.row?_delete] at hrow
    split at hrow
    · cases hrow
    · exact h.sound k i row hrow

/-- The record of an object is loaded with the identity that it is found under. -/
theorem id_of_get (h : store.Tracks places) (hkind : kind.Managed root key) {found : StoredRecord}
    {id : String} (hget : store.get kind.name id = .ok (some found)) :
    found.record.id = id ∧ found.record.version ≤ Record.maxVersion ∧
      ∃ identity config, identity.text = id ∧
        Resource.load kind found.record = .ok ⟨some identity, config⟩ := by
  unfold Store.get at hget
  split at hget
  · cases hget
  · rename_i row hrow
    obtain ⟨decoded, hdecode, hfound⟩ := Steps.map_eq_ok_iff.1 hget
    obtain rfl := Option.some.inj hfound
    obtain ⟨other, identity, config, hother, hload, htext⟩ :=
      hkind.sound_iff.1 (h.sound kind.name id row hrow)
    obtain rfl := Except.ok.inj (hdecode.symm.trans hother)
    obtain ⟨hid, hversion⟩ := Store.of_decode hdecode
    exact ⟨hid, hversion, identity, config, htext, hload⟩

/-- A record that is loaded may be kept. -/
theorem put (h : store.Tracks places) (hkind : kind.Managed root key) {record : Record}
    {identity : Identity} {config : Tree}
    (hload : Resource.load kind record = .ok ⟨some identity, config⟩)
    (hid : identity.text = record.id) (hversion : record.version ≤ Record.maxVersion)
    (now : ClockTime) :
    ∃ after, store.put kind.name record now = .ok after ∧
      after.Tracks (insert (identity.place kind.name) places) := by
  have hne : record.id ≠ "" := hid ▸ identity.text_ne_empty
  refine ⟨_, if_neg hne, ?_⟩
  refine (h.setRow hkind (Row.loads_ofRecord hload hid hversion now)).insert_place ?_
  rw [hid, Store.row?_setRow, if_pos ⟨rfl, rfl⟩]
  rfl

end Store.Tracks

end Reconcile
