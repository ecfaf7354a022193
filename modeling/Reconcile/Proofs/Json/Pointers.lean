import Mathlib.Data.List.Basic
import Reconcile.Json.Pointer
import Reconcile.Proofs.Dict.Bindings
import Reconcile.Proofs.Text.Written

/-!
# Places in a document

Pointer texts that follow each other address what their tokens lead to one after another
(`tokens?_append`), and the pointer of a child leads through the token that it was made of,
whatever characters it holds (`tokens?_child`). Changes at one place of a document can be made one
by one or at once (`update?_bind`).
-/

namespace Reconcile.Json.Pointer

variable {pointer other token : String} {tokens more : List String}

/-- The tokens of a pointer text are those between its slashes. -/
theorem tokens?_eq_some_iff : tokens? pointer = some tokens ↔
    (pointer = "" ∧ tokens = []) ∨ ∃ cs, pointer.toList = '/' :: cs ∧
      tokens = (Text.pieces '/' cs).map fun part => String.ofList (unescapeChars part) := by
  unfold tokens?
  split
  · rename_i heq
    rw [String.toList_eq_nil_iff] at heq
    simp [heq, eq_comm]
  · rename_i cs heq
    have hne : pointer ≠ "" := by
      rintro rfl
      cases heq
    simp [heq, hne, eq_comm]
  · rename_i hempty hslash
    have hne : pointer ≠ "" := by
      rintro rfl
      exact hempty rfl
    simp only [reduceCtorEq, hne, false_and, false_or, false_iff, not_exists, not_and]
    intro cs heq
    exact absurd heq (hslash cs)

/-- Two pointer texts that follow each other lead through the tokens of both. -/
theorem tokens?_append (h : tokens? pointer = some tokens) (hother : tokens? other = some more) :
    tokens? (pointer ++ other) = some (tokens ++ more) := by
  rcases tokens?_eq_some_iff.1 h with ⟨rfl, rfl⟩ | ⟨cs, hcs, rfl⟩
  · rw [String.empty_append, List.nil_append, hother]
  · rcases tokens?_eq_some_iff.1 hother with ⟨rfl, rfl⟩ | ⟨ds, hds, rfl⟩
    · rw [String.append_empty, List.append_nil, h]
    · refine tokens?_eq_some_iff.2 (.inr ⟨cs ++ '/' :: ds, ?_, ?_⟩)
      · rw [String.toList_append, hcs, hds, List.cons_append]
      · rw [Text.pieces_append, List.map_append]

/-- The pointer text of a member of the whole document leads to it, whatever its key holds. -/
theorem tokens?_member (token : String) : tokens? (child "" token) = some [token] := by
  refine tokens?_eq_some_iff.2 (.inr ⟨(escape token).toList, ?_, ?_⟩)
  · rw [child, String.empty_append, String.toList_append]
    rfl
  · rw [Text.pieces_eq_singleton (slash_not_mem_escape token)]
    have hunescape := unescape_escape token
    rw [unescape] at hunescape
    rw [List.map_singleton, hunescape]

theorem child_eq_append (pointer token : String) :
    child pointer token = pointer ++ child "" token := by
  rw [child, child, String.empty_append, String.append_assoc]

/-- The pointer text of a child leads to its parent and through one token more. -/
theorem tokens?_child (h : tokens? pointer = some tokens) (token : String) :
    tokens? (child pointer token) = some (tokens ++ [token]) := by
  rw [child_eq_append]
  exact tokens?_append h (tokens?_member token)

/-- A place that is reached in two stages is found in two stages. -/
theorem resolve?_append (tokens more : List String) (value : Json) :
    resolve? (tokens ++ more) value = (resolve? tokens value).bind (resolve? more) := by
  induction tokens generalizing value with
  | nil => rfl
  | cons token tokens ih =>
      have hrest := funext ih
      rw [List.cons_append]
      cases value with
      | obj fields => simp only [resolve?, hrest, Option.bind_assoc]
      | arr items => simp only [resolve?, hrest, Option.bind_assoc]
      | _ => rfl

/-- A member of a document is found under its key. -/
theorem find?_member {fields : Fields} (h : tokens? pointer = some [token]) :
    find? pointer (.obj fields) = fields.lookup token := by
  rw [find?, h]
  exact Option.bind_fun_some _

/-- A member of a member of a document is found under their keys. -/
theorem find?_inner {fields inner : Fields} {outer : String}
    (h : tokens? pointer = some [outer, token]) (houter : fields.lookup outer = some (.obj inner)) :
    find? pointer (.obj fields) = inner.lookup token := by
  rw [find?, h]
  show (fields.lookup outer).bind (resolve? [token]) = _
  rw [houter]
  exact Option.bind_fun_some _

/-! ## Changes at one place -/

variable {f g : Json → Option Json}

/-- A place that is reached in two stages is changed in two stages. -/
theorem update?_append (f : Json → Option Json) (tokens more : List String) (value : Json) :
    update? f (tokens ++ more) value = update? (update? f more) tokens value := by
  induction tokens generalizing value with
  | nil => rfl
  | cons token tokens ih =>
      rw [List.cons_append]
      cases value with
      | obj fields => simp only [update?, ih]
      | arr items => simp only [update?, ih]
      | _ => rfl

/-- A change depends only on what it makes of the value that is there. -/
theorem update?_congr {value found : Json} (h : resolve? tokens value = some found)
    (hsame : f found = g found) : update? f tokens value = update? g tokens value := by
  induction tokens generalizing value with
  | nil =>
      obtain rfl : value = found := Option.some.inj h
      exact hsame
  | cons token tokens ih =>
      cases value with
      | obj fields =>
          obtain ⟨inner, hinner, hfound⟩ := Option.bind_eq_some_iff.1 h
          simp only [update?, hinner, Option.bind_eq_bind, Option.bind_some, ih hfound]
      | arr items =>
          obtain ⟨i, hi, hitem⟩ := Option.bind_eq_some_iff.1 h
          obtain ⟨inner, hinner, hfound⟩ := Option.bind_eq_some_iff.1 hitem
          simp only [update?, hi, hinner, Option.bind_eq_bind, Option.bind_some, ih hfound]
      | _ => cases h

/-- A value that is there is changed if the change can be made. -/
theorem isSome_update? {value found : Json} (h : resolve? tokens value = some found) :
    (update? f tokens value).isSome = (f found).isSome := by
  induction tokens generalizing value with
  | nil =>
      obtain rfl : value = found := Option.some.inj h
      rfl
  | cons token tokens ih =>
      cases value with
      | obj fields =>
          obtain ⟨inner, hinner, hfound⟩ := Option.bind_eq_some_iff.1 h
          simp [update?, hinner, Option.isSome_bind, ← ih hfound]
      | arr items =>
          obtain ⟨i, hi, hitem⟩ := Option.bind_eq_some_iff.1 h
          obtain ⟨inner, hinner, hfound⟩ := Option.bind_eq_some_iff.1 hitem
          simp [update?, hi, hinner, Option.isSome_bind, ← ih hfound]
      | _ => cases h

/-- Two changes at one place are one change. -/
theorem update?_bind (f g : Json → Option Json) (tokens : List String) (value : Json) :
    (update? f tokens value).bind (update? g tokens) =
      update? (fun x => (f x).bind g) tokens value := by
  induction tokens generalizing value with
  | nil => rfl
  | cons token tokens ih =>
      cases value with
      | obj fields =>
          simp only [update?, Option.bind_eq_bind]
          cases hlookup : fields.lookup token with
          | none => rfl
          | some inner =>
              rw [Option.bind_some, Option.bind_some, ← ih]
              cases hchanged : update? f tokens inner with
              | none => rfl
              | some changed =>
                  simp only [Option.bind_some, update?, Option.bind_eq_bind,
                    Entries.lookup_insert, if_pos, Entries.insert_insert]
      | arr items =>
          simp only [update?, Option.bind_eq_bind]
          cases hindex : index? token with
          | none => rfl
          | some i =>
              rw [Option.bind_some, Option.bind_some]
              cases hitem : items[i]? with
              | none => rfl
              | some inner =>
                  rw [Option.bind_some, Option.bind_some, ← ih]
                  cases hchanged : update? f tokens inner with
                  | none => rfl
                  | some changed =>
                      have hlt : i < items.length := (List.getElem?_eq_some_iff.1 hitem).1
                      simp only [Option.bind_some, update?, Option.bind_eq_bind, hindex,
                        List.getElem?_set_self hlt, List.set_set]
      | _ => rfl

end Reconcile.Json.Pointer
