import Reconcile.Proofs.Block.Readers
import Reconcile.Proofs.Json.Printed
import Reconcile.Proofs.Store.Timestamps
import Reconcile.Store.Basic

/-!
# Rows that are read back

A row that was written for a record holds this record and the time of its writing, although the row
keeps both as texts (`decode_ofRecord`). So a record that has been put into a store is found there
(`get_of_put`).
-/

namespace Reconcile.Store

variable {kind id : String} {record : Record} {now : Timestamp}

/-- Attributes are read from the text that a row keeps of them. -/
theorem attributes?_render (attributes : Attributes) :
    attributes? (Json.ofTexts attributes).render = some attributes := by
  have hstrings : (attributes.entries.map fun entry => (entry.1, Json.str entry.2)).all
      (fun field => field.2.str?.isSome) = true := by
    simp [Json.str?]
  rw [attributes?, Json.parseWritten?_render_ofTexts]
  show (if _ then some (Json.texts _) else none) = _
  rw [if_pos hstrings, Block.texts_entries]

/-- A row holds the record that it was written for. -/
theorem decode_ofRecord (kind : String) (hversion : record.version ≤ Record.maxVersion)
    (hnow : now.Writable) : decode kind record.id (.ofRecord record now) = .ok ⟨record, now⟩ := by
  have hfits : 0 ≤ (record.version : Int) ∧ (record.version : Int) ≤ Record.maxVersion := by omega
  rw [decode, Row.ofRecord, if_pos hfits, attributes?_render, Timestamp.ofText?_text hnow]
  rfl

/-- The record that a row holds has the identity that the row is found under, and a version of 32
bits. -/
theorem of_decode {row : Row} {found : StoredRecord} (h : decode kind id row = .ok found) :
    found.record.id = id ∧ found.record.version ≤ Record.maxVersion := by
  unfold decode at h
  split at h
  · rename_i hfits
    split at h
    · obtain rfl := Except.ok.inj h
      exact ⟨rfl, by dsimp only; omega⟩
    · cases h
    · cases h
  · cases h

/-- A record that has been put into a store is found there. -/
theorem get_of_put {store after : Store} (hversion : record.version ≤ Record.maxVersion)
    (hnow : now.Writable) (h : store.put kind record now = .ok after) :
    after.get kind record.id = .ok (some ⟨record, now⟩) := by
  unfold put at h
  split at h
  · cases h
  · obtain rfl := Except.ok.inj h
    rw [get, row?_setRow, if_pos ⟨rfl, rfl⟩]
    dsimp only
    rw [decode_ofRecord kind hversion hnow]
    rfl

end Reconcile.Store
