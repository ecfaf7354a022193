import Mathlib.Data.List.Basic
import Reconcile.Proofs.Json.Edits

/-!
# Escaped tokens

A pointer text holds a token with its tildes and slashes escaped. The standard says this by two
replacements in the whole text, one after the other, and undoes them in the opposite order. Escaping
and unescaping in one pass are the same (`escape_eq_encode`, `unescape_eq_decode`), although the
replacements meet characters that earlier ones have made. So whatever a token holds, the pointer
text of a child reads and edits exactly the member with this key (`escape_exact`).
-/

namespace Reconcile.Json

namespace Pointer

/-! ## Escaping as two replacements -/

/-- The characters with `new` in the place of every `old`. -/
def replaceChar (old : Char) (new cs : List Char) : List Char :=
  cs.flatMap fun c => if c = old then new else [c]

/-- The characters with `new` in the place of every `first` that `second` follows, found from left
to right. -/
def replacePair (first second new : Char) : List Char → List Char
  | c :: d :: cs =>
    if c = first ∧ d = second then new :: replacePair first second new cs
    else c :: replacePair first second new (d :: cs)
  | cs => cs

/-- A token as a pointer text holds it, by the standard: every tilde is replaced by `~0`, then every
slash by `~1`. -/
def encode (token : String) : String :=
  String.ofList (replaceChar '/' ['~', '1'] (replaceChar '~' ['~', '0'] token.toList))

/-- The token that a part of a pointer text denotes, by the standard: every `~1` is replaced by a
slash, then every `~0` by a tilde. -/
def decode (part : String) : String :=
  String.ofList (replacePair '~' '0' '~' (replacePair '~' '1' '/' part.toList))

variable {first second new c : Char} {cs : List Char}

theorem replacePair_pair (first second new : Char) (cs : List Char) :
    replacePair first second new (first :: second :: cs) =
      new :: replacePair first second new cs := by
  rw [replacePair, if_pos ⟨rfl, rfl⟩]

theorem replacePair_cons (h : ¬ (c = first ∧ cs.head? = some second)) :
    replacePair first second new (c :: cs) = c :: replacePair first second new cs := by
  cases cs with
  | nil => rfl
  | cons d cs =>
      rw [List.head?_cons, Option.some.injEq] at h
      rw [replacePair, if_neg h]

/-- A replacement puts no character to the front but the one that it writes. -/
theorem head?_of_head?_replacePair (hne : c ≠ new)
    (h : (replacePair first second new cs).head? = some c) : cs.head? = some c := by
  cases cs with
  | nil => cases h
  | cons d cs =>
      by_cases hpair : d = first ∧ cs.head? = some second
      · obtain ⟨rfl, hhead⟩ := hpair
        obtain ⟨rest, rfl⟩ := List.head?_eq_some_iff.1 hhead
        rw [replacePair_pair] at h
        exact absurd (Option.some.inj h).symm hne
      · rw [replacePair_cons hpair] at h
        exact h

/-- The second replacement looks for slashes, and the first one writes none, so the two can be done
in one pass. -/
theorem escapeChars_eq (cs : List Char) :
    escapeChars cs = replaceChar '/' ['~', '1'] (replaceChar '~' ['~', '0'] cs) := by
  induction cs with
  | nil => rfl
  | cons c cs ih =>
      simp only [replaceChar, List.flatMap_cons, List.flatMap_append] at ih ⊢
      rw [escapeChars, ih]
      by_cases htilde : c = '~'
      · simp [htilde]
      · by_cases hslash : c = '/'
        · simp [hslash]
        · simp [htilde, hslash]

/-- A tilde that stands before an escaped slash is not followed by a digit once the slash has been
written, and the slash itself begins nothing. So the second replacement finds what one pass
finds. -/
theorem unescapeChars_eq (cs : List Char) :
    unescapeChars cs = replacePair '~' '0' '~' (replacePair '~' '1' '/' cs) := by
  fun_induction unescapeChars cs with
  | case1 cs ih =>
      have hfirst : replacePair '~' '1' '/' ('~' :: '0' :: cs) =
          '~' :: '0' :: replacePair '~' '1' '/' cs := by
        rw [replacePair_cons (by simp), replacePair_cons (by simp)]
      rw [hfirst, replacePair_pair, ih]
  | case2 cs ih =>
      rw [replacePair_pair, replacePair_cons (by simp), ih]
  | case3 c cs htilde hslash ih =>
      have hone : ¬ (c = '~' ∧ cs.head? = some '1') := by
        rintro ⟨rfl, hhead⟩
        obtain ⟨rest, rfl⟩ := List.head?_eq_some_iff.1 hhead
        exact hslash rest rfl rfl
      have hzero : ¬ (c = '~' ∧ (replacePair '~' '1' '/' cs).head? = some '0') := by
        rintro ⟨rfl, hhead⟩
        obtain ⟨rest, rfl⟩ :=
          List.head?_eq_some_iff.1 (head?_of_head?_replacePair (by decide) hhead)
        exact htilde rest rfl rfl
      rw [replacePair_cons hone, replacePair_cons hzero, ih]
  | case4 => rfl

theorem escape_eq_encode (token : String) : escape token = encode token :=
  congrArg String.ofList (escapeChars_eq token.toList)

theorem unescape_eq_decode (part : String) : unescape part = decode part :=
  congrArg String.ofList (unescapeChars_eq part.toList)

theorem escape_injective : Function.Injective escape := fun token other h => by
  rw [← unescape_escape token, h, unescape_escape]

end Pointer

/-! ## Members of an object within a document -/

open Pointer

variable {document : Json} {pointer : String} {fields : Fields}

/-- The pointer text of a child finds the member with its key. -/
theorem Pointer.find?_child (h : find? pointer document = some (.obj fields)) (token : String) :
    find? (child pointer token) document = fields.lookup token := by
  obtain ⟨tokens, htokens, hresolve⟩ := Option.bind_eq_some_iff.1 h
  rw [find?, tokens?_child htokens token, Option.bind_some, resolve?_append, hresolve]
  exact Option.bind_fun_some _

/-- An edit of a member changes the object and leaves the rest of the document as it is. -/
theorem Edit.perform?_child (h : find? pointer document = some (.obj fields)) (edit : Edit)
    {token : String} (hpath : edit.path = child "" token) {changed : Fields}
    (hedit : edit.perform? (.obj fields) = some (.obj changed)) :
    (edit.under pointer).perform? document =
      (Edit.replace pointer (.obj changed)).perform? document := by
  obtain ⟨tokens, htokens, hresolve⟩ := Option.bind_eq_some_iff.1 h
  rw [perform?_under htokens (hpath ▸ tokens?_member token) (List.cons_ne_nil _ _),
    perform?_eq (.replace pointer (.obj changed)) htokens]
  exact update?_congr hresolve hedit

/-- The value at a place that is there can be replaced. -/
theorem Edit.isSome_perform?_replace (h : (find? pointer document).isSome) (value : Json) :
    ((Edit.replace pointer value).perform? document).isSome := by
  obtain ⟨found, hfound⟩ := Option.isSome_iff_exists.1 h
  obtain ⟨tokens, htokens, hresolve⟩ := Option.bind_eq_some_iff.1 hfound
  rw [perform?_eq (.replace pointer value) htokens]
  exact isSome_update? hresolve

/-- Escaping a token is exact. It makes the two replacements of the standard, leaves no slash, is
undone by the opposite replacements and keeps all tokens apart. So whatever a token holds, the
pointer text of an object goes on with a slash and the escaped token to the member with this key:
reading finds its value or nothing, and an edit leaves the document with the object in which this
member has been set or removed. -/
theorem Pointer.escape_exact :
    (∀ token, escape token = encode token ∧ '/' ∉ (escape token).toList ∧
      decode (escape token) = token) ∧
    Function.Injective escape ∧
    ∀ (document : Json) (pointer : String) (fields : Fields),
      find? pointer document = some (.obj fields) → ∀ token : String,
        let place := pointer ++ "/" ++ escape token
        let holding (changed : Fields) := (Edit.replace pointer (.obj changed)).perform? document
        find? place document = fields.lookup token ∧
          (∀ changed, (holding changed).isSome) ∧
          (∀ value, (Edit.add place value).perform? document =
            holding (Entries.insert token value fields)) ∧
          ∀ held, fields.lookup token = some held →
            (∀ value, (Edit.replace place value).perform? document =
              holding (Entries.insert token value fields)) ∧
            (Edit.remove place).perform? document = holding (Entries.erase token fields) := by
  refine ⟨fun token => ⟨escape_eq_encode token, slash_not_mem_escape token, ?_⟩, escape_injective,
    fun document pointer fields h token => ?_⟩
  · rw [← unescape_eq_decode, unescape_escape]
  · intro place holding
    have hplace : place = pointer ++ child "" token := child_eq_append pointer token
    have hthere : (find? pointer document).isSome := Option.isSome_of_eq_some h
    refine ⟨find?_child h token, fun changed => Edit.isSome_perform?_replace hthere _,
      fun value => ?_, fun held hheld => ⟨fun value => ?_, ?_⟩⟩
    · rw [hplace]
      exact Edit.perform?_child h (.add _ value) rfl
        (Edit.perform?_add_member token value fields)
    · rw [hplace]
      exact Edit.perform?_child h (.replace _ value) rfl
        (Edit.perform?_replace_member (Option.isSome_of_eq_some hheld) value)
    · rw [hplace]
      exact Edit.perform?_child h (.remove _) rfl
        (Edit.perform?_remove_member (Option.isSome_of_eq_some hheld))

/-- A key with a tilde that is followed by a digit, a slash, and a tilde that is followed by another
digit, beside the key that a replacement in the wrong order would take it for. -/
theorem Pointer.escape_exact_lookalikes :
    let fields : Fields := [("/~00/", .int 1), ("~1~00~1", .int 2)]
    let document : Json := .obj [("a/b", .obj fields), ("a~1b", .null)]
    let place := "/a~1b" ++ "/" ++ escape "~1~00~1"
    find? "/a~1b" document = some (.obj fields) ∧ place = "/a~1b/~01~000~01" ∧
      find? place document = some (.int 2) ∧
      (Edit.remove place).perform? document =
        some (.obj [("a/b", .obj [("/~00/", .int 1)]), ("a~1b", .null)]) := by
  intro fields document place
  have hobject : find? "/a~1b" document = some (.obj fields) := by decide
  have hmember : fields.lookup "~1~00~1" = some (.int 2) := by decide
  obtain ⟨hfind, -, -, hedit⟩ := escape_exact.2.2 document "/a~1b" fields hobject "~1~00~1"
  refine ⟨hobject, by decide, hfind.trans hmember, ?_⟩
  rw [(hedit (.int 2) hmember).2]
  decide

end Reconcile.Json
