import Mathlib.Data.List.Basic
import Reconcile.Json.Parser
import Reconcile.Json.Printer

/-!
# Reading printed texts

An object that binds keys to texts is read back from what it is printed as
(`parseWritten?_render_ofTexts`). The lemmas follow the reader: it reads back the digits of a
control character, one character of a string, a whole string, and the fields one after another. Each
part is read with any characters after it, which the reader leaves.
-/

namespace Reconcile.Json

/-! ## Strings -/

section Strings

variable {c : Char} (read rest : List Char) (steps : Nat)

/-- The number of a control character is read from its four digits. -/
theorem hexUnit?_hex4 {n : Nat} (h : n < 0x20) :
    hexUnit? ((hex4 n).toList ++ rest) = some (n, rest) := by
  have hdigits : ∀ n < 0x20, (hex4 n).toList =
      ['0', '0', Nat.digitChar (n / 16), Nat.digitChar (n % 16)] := by decide
  have hvalue : ∀ d < 16, hexDigit? (Nat.digitChar d) = some d := by decide
  have hzero : hexDigit? '0' = some 0 := by decide
  have hhigh := hvalue (n / 16) (by omega)
  have hlow := hvalue (n % 16) (by omega)
  have hsum : ((0 * 16 + 0) * 16 + n / 16) * 16 + n % 16 = n := by omega
  rw [hdigits n h]
  simp only [List.cons_append, List.nil_append, hexUnit?, hzero, hhigh, hlow, Option.bind_eq_bind,
    Option.bind_some, hsum]

/-- A control character is read from its code unit. -/
theorem unicodeEscape?_hex4 {n : Nat} (h : n < 0x20) :
    unicodeEscape? ((hex4 n).toList ++ rest) = some (Char.ofNat n, rest) := by
  rw [unicodeEscape?, hexUnit?_hex4 rest h]
  dsimp only [Option.bind_eq_bind, Option.bind_some]
  rw [if_neg (by omega), if_neg (by omega)]

/-- The characters that have an escape of their own. -/
def shortEscapes : List Char := ['"', '\\', '\n', '\r', '\t', '\x08', '\x0c']

/-- A character with an escape of its own is read from this. -/
theorem stringRest?_short (h : c ∈ shortEscapes) :
    stringRest? (steps + 1) read ((escapeChar c).toList ++ rest) =
      stringRest? steps (c :: read) rest := by
  simp only [shortEscapes, List.mem_cons, List.not_mem_nil, or_false] at h
  rcases h with rfl | rfl | rfl | rfl | rfl | rfl | rfl <;>
    simp [escapeChar, stringRest?, escape?]

/-- Every character of a string is read from what it is written as. -/
theorem stringRest?_escapeChar (c : Char) :
    stringRest? (steps + 1) read ((escapeChar c).toList ++ rest) =
      stringRest? steps (c :: read) rest := by
  by_cases hshort : c ∈ shortEscapes
  · exact stringRest?_short read rest steps hshort
  simp only [shortEscapes, List.mem_cons, List.not_mem_nil, or_false, not_or] at hshort
  obtain ⟨hquote, hbackslash, hnewline, hreturn, htab, hback, hfeed⟩ := hshort
  simp only [escapeChar, if_neg hquote, if_neg hbackslash, if_neg hnewline, if_neg hreturn,
    if_neg htab, if_neg hback, if_neg hfeed]
  split
  · rename_i hcontrol
    simp [stringRest?, escape?, unicodeEscape?_hex4 rest hcontrol]
  · rename_i hplain
    simp [stringRest?, hquote, hbackslash, hplain]

/-- The characters of a string as they are written. -/
def escaped (cs : List Char) : List Char := cs.flatMap fun c => (escapeChar c).toList

/-- A quoted text is its escaped characters between quotation marks. -/
theorem toList_quote (s : String) : (quote s).toList = '"' :: (escaped s.toList ++ ['"']) := by
  simp [quote, escaped, String.toList_join, List.flatMap_map]

/-- No character is written as nothing. -/
theorem length_le_escaped (cs : List Char) : cs.length ≤ (escaped cs).length := by
  have hchar : ∀ c, 1 ≤ (escapeChar c).toList.length := by
    intro c
    unfold escapeChar
    split_ifs <;> simp
  induction cs with
  | nil => exact Nat.le_refl 0
  | cons c cs ih =>
      have := hchar c
      rw [escaped, List.flatMap_cons, List.length_append, List.length_cons]
      rw [escaped] at ih
      omega

/-- Characters are read up to the quote that ends them. -/
theorem stringRest?_escaped {cs : List Char} (h : cs.length < steps) :
    stringRest? steps read (escaped cs ++ '"' :: rest) =
      some (String.ofList (read.reverse ++ cs), rest) := by
  induction cs generalizing read steps with
  | nil =>
      obtain ⟨steps, rfl⟩ := Nat.exists_eq_succ_of_ne_zero (Nat.ne_of_gt h)
      simp [escaped, stringRest?]
  | cons c cs ih =>
      obtain ⟨steps, rfl⟩ := Nat.exists_eq_succ_of_ne_zero (Nat.ne_of_gt (Nat.zero_lt_of_lt h))
      have hcons : escaped (c :: cs) = (escapeChar c).toList ++ escaped cs := List.flatMap_cons
      rw [hcons, List.append_assoc, stringRest?_escapeChar,
        ih (c :: read) steps (Nat.lt_of_succ_lt_succ h), List.reverse_cons, List.append_assoc]
      rfl

/-- A string is read from what it is written as, after its opening quote. -/
theorem stringRest?_quote (s : String) :
    stringRest? ((escaped s.toList ++ '"' :: rest).length + 1) []
      (escaped s.toList ++ '"' :: rest) = some (s, rest) := by
  have hlength := length_le_escaped s.toList
  rw [stringRest?_escaped, List.reverse_nil, List.nil_append, String.ofList_toList]
  rw [List.length_append]
  omega

end Strings

/-! ## Fields -/

/-- No blanks are skipped before a character that is none. -/
theorem skipBlanks_cons {c : Char} (h : isBlank c = false) (cs : List Char) :
    skipBlanks (c :: cs) = c :: cs :=
  List.dropWhile_cons_of_neg (by simp [h])

/-- A string is read as a value. -/
theorem value?_quote (steps depth : Nat) (s : String) (rest : List Char) :
    value? (steps + 1) depth ((quote s).toList ++ rest) = some (.str s, rest) := by
  rw [toList_quote, List.cons_append, List.append_assoc, List.singleton_append, value?,
    skipBlanks_cons (by decide)]
  show (stringRest? _ [] (escaped s.toList ++ '"' :: rest)).map _ = _
  rw [stringRest?_quote]
  rfl

/-- The fields that bind keys to texts. -/
def textFields (texts : List (String × String)) : Fields := texts.map fun (k, v) => (k, .str v)

/-- The characters of a field that binds a key to a text. -/
theorem toList_field (key text : String) (rest : List Char) :
    (quote key ++ ":" ++ quote text).toList ++ rest =
      '"' :: (escaped key.toList ++ '"' :: ':' :: ((quote text).toList ++ rest)) := by
  simp [toList_quote]

variable (steps depth : Nat) (key text : String) (rest : List Char)

/-- The last field of an object is read with the brace after it. -/
theorem fields?_last :
    fields? (steps + 2) depth ((quote key ++ ":" ++ quote text).toList ++ '\x7d' :: rest) =
      some ([(key, .str text)], rest) := by
  rw [toList_field, fields?, skipBlanks_cons (by decide)]
  show (stringRest? _ [] (escaped key.toList ++ '"' :: _)).bind _ = _
  rw [stringRest?_quote]
  show (value? (steps + 1) depth ((quote text).toList ++ _)).bind _ = _
  rw [value?_quote]
  rfl

/-- Another field is read with the comma after it, and the other fields follow. -/
theorem fields?_more :
    fields? (steps + 2) depth ((quote key ++ ":" ++ quote text).toList ++ ',' :: rest) =
      (fields? (steps + 1) depth rest).map fun (fields, rest) =>
        ((key, .str text) :: fields, rest) := by
  rw [toList_field, fields?, skipBlanks_cons (by decide)]
  show (stringRest? _ [] (escaped key.toList ++ '"' :: _)).bind _ = _
  rw [stringRest?_quote]
  show (value? (steps + 1) depth ((quote text).toList ++ _)).bind _ = _
  rw [value?_quote]
  show (fields? (steps + 1) depth rest).bind _ = _
  cases fields? (steps + 1) depth rest with
  | none => rfl
  | some read => rfl

variable {texts : List (String × String)} {steps}

/-- Fields are printed one after another. -/
theorem renderFields_textFields (key text : String) (texts : List (String × String)) :
    renderFields (textFields ((key, text) :: texts)) =
      if texts = [] then quote key ++ ":" ++ quote text
      else quote key ++ ":" ++ quote text ++ "," ++ renderFields (textFields texts) := by
  cases texts with
  | nil => rfl
  | cons field texts =>
      rw [if_neg (List.cons_ne_nil field texts), textFields, List.map_cons, List.map_cons,
        renderFields]
      · rw [render]
        rfl
      · exact fun hnil => nomatch hnil

/-- No field is printed as nothing. -/
theorem length_le_renderFields (texts : List (String × String)) :
    texts.length ≤ (renderFields (textFields texts)).toList.length := by
  induction texts with
  | nil => exact Nat.zero_le _
  | cons field texts ih =>
      obtain ⟨key, text⟩ := field
      rw [renderFields_textFields]
      split
      · rename_i hnil
        simp [hnil, toList_quote]
      · simp only [String.toList_append, List.length_append, List.length_cons, toList_quote]
        omega

/-- The fields of an object are read up to the brace that ends them. -/
theorem fields?_renderFields (hne : texts ≠ []) (h : texts.length < steps) :
    fields? steps depth ((renderFields (textFields texts)).toList ++ '\x7d' :: rest) =
      some (textFields texts, rest) := by
  induction texts generalizing steps with
  | nil => exact absurd rfl hne
  | cons field texts ih =>
      obtain ⟨key, text⟩ := field
      rw [List.length_cons] at h
      obtain ⟨steps, rfl⟩ : ∃ fewer, steps = fewer + 2 := ⟨steps - 2, by omega⟩
      rw [renderFields_textFields]
      split
      · rename_i hlast
        rw [hlast]
        exact fields?_last steps depth key text rest
      · rename_i hmore
        have hchars : (quote key ++ ":" ++ quote text ++ "," ++
            renderFields (textFields texts)).toList ++ '\x7d' :: rest =
              (quote key ++ ":" ++ quote text).toList ++ ',' ::
                ((renderFields (textFields texts)).toList ++ '\x7d' :: rest) := by
          simp
        rw [hchars, fields?_more, ih hmore (Nat.lt_of_succ_lt_succ h)]
        rfl

/-- Fields are printed from a quote on. -/
theorem exists_renderFields (hne : texts ≠ []) :
    ∃ cs, (renderFields (textFields texts)).toList = '"' :: cs := by
  cases texts with
  | nil => exact absurd rfl hne
  | cons field texts =>
      obtain ⟨key, text⟩ := field
      rw [renderFields_textFields]
      split
      · exact ⟨_, by rw [String.toList_append, String.toList_append, toList_quote]; rfl⟩
      · exact ⟨_, by simp only [String.toList_append, toList_quote]; rfl⟩

/-! ## Objects -/

/-- An object is read up to the brace that ends it. -/
theorem value?_renderFields (h : texts.length < steps) :
    value? (steps + 1) (depth + 1)
        ('\x7b' :: ((renderFields (textFields texts)).toList ++ '\x7d' :: rest)) =
      some (.obj (textFields texts), rest) := by
  rw [value?, skipBlanks_cons (by decide)]
  cases texts with
  | nil => rfl
  | cons field texts =>
      have hfields := fields?_renderFields depth rest (List.cons_ne_nil field texts) h
      obtain ⟨cs, hcs⟩ := exists_renderFields (List.cons_ne_nil field texts)
      rw [hcs, List.cons_append] at hfields ⊢
      show (fields? steps depth ('"' :: _)).map _ = _
      rw [hfields]
      rfl

/-- The object of a dictionary of texts is read from what it is printed as. -/
theorem parseWritten?_render_ofTexts (d : Dict String) :
    parseWritten? (ofTexts d).render = some (ofTexts d) := by
  have hchars : (ofTexts d).render.toList =
      '\x7b' :: ((renderFields (textFields d.entries)).toList ++ ['\x7d']) := by
    rw [ofTexts, render]
    simp [textFields]
  have hlength := length_le_renderFields d.entries
  have hsteps : d.entries.length < 2 * (ofTexts d).render.toList.length + 1 := by
    rw [hchars, List.length_cons, List.length_append]
    omega
  have hread : value? _ maxDepth _ = _ := value?_renderFields (maxDepth - 1) [] hsteps
  rw [← hchars] at hread
  show (value? (2 * (ofTexts d).render.toList.length + 2) maxDepth _).bind _ = _
  rw [hread]
  rfl

end Reconcile.Json
