import Mathlib.Data.Nat.Digits.Defs
import Reconcile.Proofs.Text.Written
import Reconcile.Store.Timestamp

/-!
# Reading written times

A time that can be written down is read back from its text (`Timestamp.ofText?_text`). Its numbers
have leading zeros up to a fixed width, so each of them is read without a look at what follows, and
only a fraction ends where no digit follows any more.
-/

namespace Reconcile.Timestamp

/-! ## Numbers with leading zeros -/

section Padded

variable {width n : Nat}

/-- A number with leading zeros consists of zeros and its own digits. -/
theorem toList_padded (width n : Nat) : (padded width n).toList =
    List.replicate (width - (Nat.toDigits 10 n).length) '0' ++ Nat.toDigits 10 n := by
  rw [padded, String.toList_ofList, Nat.toList_repr]

/-- A number that fits has as many digits as asked for. -/
theorem length_padded (hwidth : 0 < width) (h : n < 10 ^ width) :
    (padded width n).toList.length = width := by
  have hlength := Nat.toDigits_length 10 n width hwidth h
  rw [toList_padded, List.length_append, List.length_replicate]
  omega

/-- A number with leading zeros holds digits only. -/
theorem isDigit_of_mem_padded {c : Char} (h : c ∈ (padded width n).toList) : c.isDigit := by
  rw [toList_padded, List.mem_append] at h
  rcases h with h | h
  · rw [List.eq_of_mem_replicate h]
    rfl
  · exact Nat.isDigit_of_mem_toDigits (by decide) (by decide) h

/-- A number is read from its digits, with or without leading zeros. -/
theorem digits?_toList_padded (width n : Nat) :
    Decimal.digits? (padded width n).toList = some n := by
  rw [toList_padded]
  exact Decimal.digits?_replicate_zero _ n

/-- A number that fits is read with any characters after it. -/
theorem digits?_padded (hwidth : 0 < width) (h : n < 10 ^ width) (rest : List Char) :
    digits? width ((padded width n).toList ++ rest) = some (n, rest) := by
  have hlength := length_padded hwidth h
  have htake : ((padded width n).toList ++ rest).take width = (padded width n).toList := by
    rw [List.take_append_of_le_length (Nat.le_of_eq hlength.symm), List.take_of_length_le]
    exact Nat.le_of_eq hlength
  have hdrop : ((padded width n).toList ++ rest).drop width = rest := by
    rw [List.drop_append_of_le_length (Nat.le_of_eq hlength.symm), List.drop_of_length_le]
    · rfl
    · exact Nat.le_of_eq hlength
  rw [digits?, htake, hdrop, if_pos hlength, digits?_toList_padded]
  rfl

end Padded

/-! ## Days and times of day -/

/-- A day is read from its year, month and day. -/
theorem date?_padded {year month day : Nat} (hyear : year < 10 ^ 4) (hmonth : month < 10 ^ 2)
    (hday : day < 10 ^ 2) (rest : List Char) :
    date? ((padded 4 year).toList ++ '-' :: ((padded 2 month).toList ++
        '-' :: ((padded 2 day).toList ++ rest))) =
      (Date.of? year month day).map fun date => (date, rest) := by
  have hread := fun rest => digits?_padded (show 0 < 4 by decide) hyear rest
  rw [date?, hread]
  simp only [Option.bind_eq_bind, Option.bind_some, after?, if_true,
    digits?_padded (show 0 < 2 by decide) hmonth, digits?_padded (show 0 < 2 by decide) hday]
  cases Date.of? year month day with
  | none => rfl
  | some date => rfl

/-- A fraction is read up to the first character that is no digit. -/
theorem fraction?_padded {width n : Nat} (hpos : 0 < width) (hnine : width ≤ 9)
    (h : n < 10 ^ width) {c : Char} (hc : c.isDigit = false) (rest : List Char) :
    fraction? ('.' :: ((padded width n).toList ++ c :: rest)) =
      some (n * 10 ^ (9 - width), c :: rest) := by
  have hlength := length_padded hpos h
  have hdigits : ((padded width n).toList ++ c :: rest).takeWhile Char.isDigit =
      (padded width n).toList := by
    rw [List.takeWhile_append_of_pos fun _ hmem => isDigit_of_mem_padded hmem,
      List.takeWhile_cons_of_neg (by simp [hc]), List.append_nil]
  have htake : (padded width n).toList.take 9 = (padded width n).toList :=
    List.take_of_length_le (hlength.trans_le hnine)
  simp only [fraction?, hdigits, htake, digits?_toList_padded, hlength, Option.bind_eq_bind,
    Option.bind_some]
  have hdrop : ((padded width n).toList ++ c :: rest).drop width = c :: rest := by
    rw [List.drop_append_of_le_length (Nat.le_of_eq hlength.symm),
      List.drop_of_length_le (Nat.le_of_eq hlength)]
    rfl
  rw [hdrop]
  rfl

/-- The nanoseconds of a second are read from their fraction. -/
theorem fraction?_fractionText {nanos : Nat} (h : nanos < secondNanos) {c : Char}
    (hpoint : c ≠ '.') (hc : c.isDigit = false) (rest : List Char) :
    fraction? ((fractionText nanos).toList ++ c :: rest) = some (nanos, c :: rest) := by
  have hbound : nanos < 1_000_000_000 := h
  have hread : ∀ width n, 0 < width → width ≤ 9 → n < 10 ^ width → n * 10 ^ (9 - width) = nanos →
      fraction? (("." ++ padded width n).toList ++ c :: rest) = some (nanos, c :: rest) := by
    intro width n hwidth hnine hfits hscale
    have hchars : ("." ++ padded width n).toList ++ c :: rest =
        '.' :: ((padded width n).toList ++ c :: rest) := by simp
    rw [hchars, fraction?_padded hwidth hnine hfits hc, hscale]
  unfold fractionText
  split_ifs with hzero hmillis hmicros
  · rw [hzero]
    show fraction? (c :: rest) = _
    unfold fraction?
    split
    · rename_i heq
      exact absurd (List.cons.inj heq).1 hpoint
    · rfl
  · exact hread 3 _ (by decide) (by decide) (by omega) (by omega)
  · exact hread 6 _ (by decide) (by decide) (by omega) (by omega)
  · exact hread 9 _ (by decide) (by decide) (by omega) (by omega)

/-- A time of day is read from its hour, minute and second, which is no leap second. -/
theorem clock?_padded {hour minute second nanos : Nat} {rest : List Char} (hhour : hour < 24)
    (hminute : minute < 60) (hsecond : second < 60)
    (hfraction : fraction? ((fractionText nanos).toList ++ rest) = some (nanos, rest)) :
    clock? ((padded 2 hour).toList ++ ':' :: ((padded 2 minute).toList ++
        ':' :: ((padded 2 second).toList ++ ((fractionText nanos).toList ++ rest)))) =
      some (3600 * hour + 60 * minute + second, nanos, rest) := by
  have htwo : ∀ n < 100, ∀ rest, digits? 2 ((padded 2 n).toList ++ rest) = some (n, rest) :=
    fun n h rest => digits?_padded (by decide) h rest
  rw [clock?, htwo hour (by omega)]
  simp only [Option.bind_eq_bind, Option.bind_some, after?, if_true, htwo minute (by omega),
    htwo second (by omega), hfraction, hhour, hminute, hsecond, and_self]

/-! ## Times -/

/-- A time whose clock shows no offset is the time that the clock shows. -/
theorem ofLocal_zero {date : Date} {second : Nat} (h : second < daySeconds) (nanos : Nat) :
    ofLocal date second 0 nanos = ⟨date, second, nanos⟩ := by
  unfold ofLocal daySeconds at *
  simp only [Int.sub_zero]
  rw [if_neg (by omega), if_pos (by omega), Int.toNat_natCast]

/-- A month and a day have two digits. -/
theorem Date.lt_hundred_of_of? {year : Int} {month day : Nat} {date : Date}
    (h : Date.of? year month day = some date) : month < 100 ∧ day < 100 := by
  unfold Date.of? at h
  split at h
  · rename_i hvalid
    have hlength : Date.monthLength year month ≤ 31 := by
      unfold Date.monthLength
      split_ifs <;> decide
    omega
  · cases h

/-- A time that can be written down is read from its text. -/
theorem ofText?_text {t : Timestamp} (h : t.Writable) : ofText? t.text = some t := by
  obtain ⟨⟨hpositive, hyear⟩, hdate, hsecond, hnanos⟩ := h
  obtain ⟨hmonth, hday⟩ := Date.lt_hundred_of_of? hdate
  have hsecond' : t.second < 86400 := hsecond
  have hbelow : t.nanos % secondNanos = t.nanos := Nat.mod_eq_of_lt hnanos
  have hleap : t.second % 60 + t.nanos / secondNanos = t.second % 60 := by
    rw [Nat.div_eq_of_lt hnanos, Nat.add_zero]
  -- The text ends with the offset of no seconds.
  have hchars : t.text.toList = (padded 4 t.date.year.toNat).toList ++ '-' ::
      ((padded 2 t.date.month).toList ++ '-' :: ((padded 2 t.date.day).toList ++ 'T' ::
        ((padded 2 (t.second / 3600)).toList ++ ':' :: ((padded 2 (t.second / 60 % 60)).toList ++
          ':' :: ((padded 2 (t.second % 60)).toList ++ ((fractionText t.nanos).toList ++
            ['+', '0', '0', ':', '0', '0'])))))) := by
    simp [text, yearText, hpositive, hyear, hleap, hbelow]
  have hyearNat : (t.date.year.toNat : Int) = t.date.year := Int.toNat_of_nonneg hpositive
  have hclock : 3600 * (t.second / 3600) + 60 * (t.second / 60 % 60) + t.second % 60 =
      t.second := by
    omega
  have hoffset : offset? ['+', '0', '0', ':', '0', '0'] = some 0 := by decide
  rw [ofText?, hchars, date?_padded (by omega) hmonth hday, hyearNat, hdate]
  simp only [Option.bind_eq_bind, Option.bind_some, Option.map_some]
  rw [clock?_padded (by omega) (by omega) (by omega)
    (fraction?_fractionText hnanos (by decide) (by decide) _)]
  simp only [Option.bind_some, hoffset, hclock]
  rw [if_pos (by decide), ofLocal_zero hsecond]

end Reconcile.Timestamp
