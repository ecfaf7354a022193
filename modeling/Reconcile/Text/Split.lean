/-!
# Cutting text at a character

Paths, pointers and identities are texts whose parts are separated by one character. The
functions here cut such a text: `split` at every separator, `cut?` at the first one, and
`dropPrefix?` after a known beginning. The parts of a cut have no separator before it
(`cutChars?_eq_some`), and a text that does not end with a character is not trimmed
(`trimEnd_eq_self`).
-/

namespace Reconcile.Text

/-- The pieces of a character sequence between occurrences of `sep`; there is at least one. -/
def pieces (sep : Char) : List Char → List (List Char)
  | [] => [[]]
  | c :: cs =>
    if c = sep then [] :: pieces sep cs
    else
      match pieces sep cs with
      | [] => [[c]]
      | p :: ps => (c :: p) :: ps

/-- The pieces of a text between occurrences of `sep`. -/
def split (sep : Char) (s : String) : List String :=
  (pieces sep s.toList).map String.ofList

/-- The characters before and after the first occurrence of `sep`. -/
def cutChars? (sep : Char) : List Char → Option (List Char × List Char)
  | [] => none
  | c :: cs =>
    if c = sep then some ([], cs)
    else (cutChars? sep cs).map fun (before, after) => (c :: before, after)

/-- The texts before and after the first occurrence of `sep`. -/
def cut? (sep : Char) (s : String) : Option (String × String) :=
  (cutChars? sep s.toList).map fun (before, after) => (String.ofList before, String.ofList after)

/-- What follows `start` in a text that begins with it. -/
def dropPrefix? (start s : String) : Option String :=
  (start.toList.isPrefixOf? s.toList).map String.ofList

/-- A text without the occurrences of `c` at its end. -/
def trimEnd (c : Char) (s : String) : String :=
  String.ofList (s.toList.reverse.dropWhile (· = c)).reverse

/-- A text that ends otherwise is not trimmed. -/
theorem trimEnd_eq_self {c : Char} {s : String} (h : s.toList.getLast? ≠ some c) :
    trimEnd c s = s := by
  have hdrop : s.toList.reverse.dropWhile (· = c) = s.toList.reverse := by
    rw [List.getLast?_eq_head?_reverse] at h
    cases hrev : s.toList.reverse with
    | nil => rfl
    | cons last rest =>
        rw [hrev, List.head?_cons] at h
        exact List.dropWhile_cons_of_neg (by simpa using h)
  rw [trimEnd, hdrop, List.reverse_reverse, String.ofList_toList]

theorem pieces_ne_nil (sep : Char) (cs : List Char) : pieces sep cs ≠ [] := by
  cases cs with
  | nil => simp [pieces]
  | cons c cs =>
    simp only [pieces]
    split
    · simp
    · split <;> simp

/-- A cut leaves out the first separator and nothing else. -/
theorem cutChars?_eq_some {sep : Char} {cs before after : List Char}
    (hcut : cutChars? sep cs = some (before, after)) :
    cs = before ++ sep :: after ∧ sep ∉ before := by
  induction cs generalizing before with
  | nil => simp [cutChars?] at hcut
  | cons c cs ih =>
    simp only [cutChars?] at hcut
    split at hcut
    · rename_i heq
      simp only [Option.some.injEq, Prod.mk.injEq] at hcut
      simp [← hcut.1, ← hcut.2, heq]
    · rename_i hne
      obtain ⟨⟨b, a⟩, hrest, hpair⟩ := Option.map_eq_some_iff.1 hcut
      simp only [Prod.mk.injEq] at hpair
      obtain ⟨rfl, rfl⟩ := hpair
      obtain ⟨rfl, hnot⟩ := ih hrest
      refine ⟨rfl, ?_⟩
      simp only [List.mem_cons, not_or]
      exact ⟨fun h => hne h.symm, hnot⟩

end Reconcile.Text
