import Mathlib.Data.List.Basic
import Reconcile.Json.Edit
import Reconcile.Proofs.Json.Pointers

/-!
# Edits within a document

Edits below one place of a document change the value at that place and nothing else:
`performAll?_under` carries them out on that value alone. The edits of the members of an object
set and erase its entries.
-/

namespace Reconcile.Json

namespace Edit

open Pointer

variable {base : String} {tokens more : List String}

/-- The edit of the same place within the value that a pointer text addresses. -/
def under (base : String) : Edit → Edit
  | .add path value => .add (base ++ path) value
  | .replace path value => .replace (base ++ path) value
  | .remove path => .remove (base ++ path)

/-- An edit below a pointer has the pointer before its path. -/
@[simp]
theorem path_under (base : String) (edit : Edit) : (edit.under base).path = base ++ edit.path := by
  cases edit with
  | add path value => rfl
  | replace path value => rfl
  | remove path => rfl

/-- The document that an edit makes of a document at the place that tokens lead to. -/
def performAt? (edit : Edit) (tokens : List String) (document : Json) : Option Json :=
  match edit with
  | .add _ value => addAt? tokens value document
  | .replace _ value => replaceAt? tokens value document
  | .remove _ => removeAt? tokens document

/-- An edit is carried out at the tokens of its pointer text. -/
theorem perform?_eq (edit : Edit) (h : tokens? edit.path = some tokens) (document : Json) :
    edit.perform? document = performAt? edit tokens document := by
  rw [perform?, h]
  cases edit with
  | add path value => rfl
  | replace path value => rfl
  | remove path => rfl

/-- What an edit does at the end of a place it does to the value where the place begins. -/
theorem performAt?_append (edit : Edit) (hne : more ≠ []) (document : Json) :
    performAt? edit (tokens ++ more) document =
      update? (performAt? edit more) tokens document := by
  obtain ⟨init, last, rfl⟩ := (List.eq_nil_or_concat more).resolve_left hne
  rw [List.concat_eq_append]
  cases edit with
  | add path value =>
      have hadd : ∀ tokens : List String, addAt? (tokens ++ [last]) value =
          update? (addMember? last value) tokens := by
        intro tokens
        funext document
        rw [addAt?, List.getLast?_concat, List.dropLast_concat]
      show addAt? (tokens ++ (init ++ [last])) value document =
        update? (addAt? (init ++ [last]) value) tokens document
      rw [← List.append_assoc, hadd, hadd, update?_append]
  | replace path value =>
      show update? _ (tokens ++ (init ++ [last])) document = _
      rw [update?_append]
      rfl
  | remove path =>
      have hremove : ∀ tokens : List String, removeAt? (tokens ++ [last]) =
          update? (removeMember? last) tokens := by
        intro tokens
        funext document
        rw [removeAt?, List.getLast?_concat, List.dropLast_concat]
      show removeAt? (tokens ++ (init ++ [last])) document =
        update? (removeAt? (init ++ [last])) tokens document
      rw [← List.append_assoc, hremove, hremove, update?_append]

/-- An edit below a place changes the value at that place. -/
theorem perform?_under (hbase : tokens? base = some tokens) {edit : Edit}
    (hpath : tokens? edit.path = some more) (hne : more ≠ []) (document : Json) :
    (edit.under base).perform? document = update? edit.perform? tokens document := by
  have htokens : tokens? (edit.under base).path = some (tokens ++ more) := by
    rw [path_under]
    exact tokens?_append hbase hpath
  have hsame : performAt? (edit.under base) = performAt? edit := by
    cases edit with
    | add path value => rfl
    | replace path value => rfl
    | remove path => rfl
  rw [perform?_eq _ htokens, hsame, performAt?_append edit hne, funext (perform?_eq edit hpath)]

@[simp]
theorem performAll?_nil (document : Json) : performAll? [] document = some document := rfl

@[simp]
theorem performAll?_cons (edit : Edit) (edits : List Edit) (document : Json) :
    performAll? (edit :: edits) document =
      (edit.perform? document).bind (performAll? edits) := rfl

/-- Edits that follow each other are carried out one list after the other. -/
theorem performAll?_append (edits rest : List Edit) (document : Json) :
    performAll? (edits ++ rest) document =
      (performAll? edits document).bind (performAll? rest) := by
  induction edits generalizing document with
  | nil => rfl
  | cons edit edits ih =>
      rw [List.cons_append, performAll?_cons, performAll?_cons, Option.bind_assoc]
      exact congrArg _ (funext ih)

/-- Edits below a place change the value at that place. -/
theorem performAll?_under (hbase : tokens? base = some tokens) {edits : List Edit}
    (hpath : ∀ edit ∈ edits, ∃ token, tokens? edit.path = some [token]) (hne : edits ≠ [])
    (document : Json) :
    performAll? (edits.map (under base)) document =
      update? (performAll? edits) tokens document := by
  induction edits generalizing document with
  | nil => exact absurd rfl hne
  | cons edit edits ih =>
      obtain ⟨token, htoken⟩ := hpath edit List.mem_cons_self
      rw [List.map_cons, performAll?_cons,
        perform?_under hbase htoken (List.cons_ne_nil token []) document]
      -- The edits below the place are gathered into one update from the last one on.
      cases edits with
      | nil =>
          have hlast : performAll? [edit] = edit.perform? := by
            funext document
            exact Option.bind_fun_some _
          rw [hlast]
          exact Option.bind_fun_some _
      | cons next edits =>
          have hrest := ih (fun e he => hpath e (List.mem_cons_of_mem _ he))
            (List.cons_ne_nil next edits)
          rw [funext hrest, update?_bind]
          rfl

/-! ## Edits of the members of an object -/

/-- An addition to an object sets the member. -/
theorem perform?_add_member (key : String) (value : Json) (fields : Fields) :
    perform? (.add (child "" key) value) (.obj fields) =
      some (.obj (Entries.insert key value fields)) := by
  rw [perform?_eq (.add (child "" key) value) (tokens?_member key)]
  rfl

/-- A replacement sets a member that is there. -/
theorem perform?_replace_member {key : String} {fields : Fields}
    (h : (fields.lookup key).isSome) (value : Json) :
    perform? (.replace (child "" key) value) (.obj fields) =
      some (.obj (Entries.insert key value fields)) := by
  obtain ⟨before, hbefore⟩ := Option.isSome_iff_exists.1 h
  rw [perform?_eq (.replace (child "" key) value) (tokens?_member key)]
  simp [performAt?, replaceAt?, update?, hbefore]

/-- A member that is not there cannot be replaced. -/
theorem perform?_replace_missing {key : String} {fields : Fields} (h : fields.lookup key = none)
    (value : Json) : perform? (.replace (child "" key) value) (.obj fields) = none := by
  rw [perform?_eq (.replace (child "" key) value) (tokens?_member key)]
  simp [performAt?, replaceAt?, update?, h]

/-- A removal erases a member that is there. -/
theorem perform?_remove_member {key : String} {fields : Fields}
    (h : (fields.lookup key).isSome) :
    perform? (.remove (child "" key)) (.obj fields) =
      some (.obj (Entries.erase key fields)) := by
  obtain ⟨before, hbefore⟩ := Option.isSome_iff_exists.1 h
  rw [perform?_eq (.remove (child "" key)) (tokens?_member key)]
  simp [performAt?, removeAt?, update?, removeMember?, hbefore]

/-- A member that is not there cannot be removed. -/
theorem perform?_remove_missing {key : String} {fields : Fields} (h : fields.lookup key = none) :
    perform? (.remove (child "" key)) (.obj fields) = none := by
  rw [perform?_eq (.remove (child "" key)) (tokens?_member key)]
  simp [performAt?, removeAt?, update?, removeMember?, h]

end Edit

/-! ## Documents without a place -/

/-- The document without the value that a pointer text addresses. -/
def without (pointer : String) (document : Json) : Json :=
  ((Edit.remove pointer).perform? document).getD document

/-- A document without one of its members. -/
theorem without_member {fields : Fields} {pointer token : String}
    (h : Pointer.tokens? pointer = some [token]) :
    without pointer (.obj fields) = .obj (Entries.erase token fields) := by
  rw [without, Edit.perform?_eq (.remove pointer) h]
  cases hlookup : fields.lookup token with
  | none =>
      rw [Entries.erase_eq_self hlookup]
      simp [Edit.performAt?, Edit.removeAt?, Pointer.update?, Edit.removeMember?, hlookup]
  | some value =>
      simp [Edit.performAt?, Edit.removeAt?, Pointer.update?, Edit.removeMember?, hlookup]

/-- A document without a member of one of its members. -/
theorem without_inner {fields inner : Fields} {pointer outer token : String}
    (h : Pointer.tokens? pointer = some [outer, token]) (hfields : Entries.Ascending fields)
    (houter : fields.lookup outer = some (.obj inner)) :
    without pointer (.obj fields) =
      .obj (Entries.insert outer (.obj (Entries.erase token inner)) fields) := by
  rw [without, Edit.perform?_eq (.remove pointer) h]
  cases hlookup : inner.lookup token with
  | none =>
      rw [Entries.erase_eq_self hlookup, hfields.insert_eq_self houter]
      simp [Edit.performAt?, Edit.removeAt?, Pointer.update?, Edit.removeMember?, houter, hlookup]
  | some value =>
      simp [Edit.performAt?, Edit.removeAt?, Pointer.update?, Edit.removeMember?, houter, hlookup]

end Reconcile.Json
