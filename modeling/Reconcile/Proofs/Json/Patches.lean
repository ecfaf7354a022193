import Mathlib.Data.List.Basic
import Reconcile.Json.Patch
import Reconcile.Proofs.Except.Steps
import Reconcile.Proofs.Json.Edits

/-!
# Edits as patch documents

A patch document made of edits does what the edits do: it is read as these edits, and it is carried
out exactly if they can be performed.
-/

namespace Reconcile.Json.Operation

/-- Edits are read from the patch document that holds them. -/
theorem listOfJson?_listToJson (edits : List Edit) :
    listOfJson? (Edit.listToJson edits) = some (edits.map .edit) := by
  have hitem : ∀ edit : Edit, edit.toJson.obj?.bind ofFields? = some (.edit edit) := by
    intro edit
    cases edit <;> simp [Edit.toJson, ofFields?, Edit.ofFields?, obj?, str?, List.lookup_cons]
  have hall : ∀ edits : List Edit,
      (edits.map Edit.toJson).mapM (fun item => item.obj?.bind ofFields?) =
        some (edits.map .edit) := by
    -- The position only numbers the operations for a failure, so it is any number here.
    intro edits
    induction edits with
    | nil => rfl
    | cons edit edits ih =>
        rw [List.map_cons, List.mapM_cons, hitem edit, ih]
        rfl
  exact hall edits

/-- A patch document made of edits is carried out exactly if they can be performed. -/
theorem applyAll_edits_eq_ok_iff {edits : List Edit} {document changed : Json} :
    applyAll (edits.map .edit) document = .ok changed ↔
      Edit.performAll? edits document = some changed := by
  have hfrom : ∀ (edits : List Edit) (position : Nat) (document : Json),
      applyFrom position (edits.map .edit) document = .ok changed ↔
        Edit.performAll? edits document = some changed := by
    intro edits
    induction edits with
    | nil =>
        intro position document
        rw [List.map_nil, applyFrom, Edit.performAll?_nil, Except.ok.injEq, Option.some.injEq]
    | cons edit edits ih =>
        intro position document
        rw [List.map_cons, applyFrom, Edit.performAll?_cons, apply, edited]
        cases edit.perform? document with
        | none => simp
        | some next => exact ih (position + 1) next
  exact hfrom edits 0 document

end Reconcile.Json.Operation
