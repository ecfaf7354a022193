import Reconcile.Text.Decimal

/-!
# Times of writing

A time is read from a date, a time of day and an offset, as RFC 3339 writes them, and kept as a
time without offset. Sixty seconds name a leap second, which is kept as the second before it with
more than a whole second of nanoseconds. An offset is shorter than a day, so that it moves a time
by one day at most.
-/

namespace Reconcile

/-- A day of the Gregorian calendar, which is extended to all years. -/
structure Date where
  year : Int
  month : Nat
  day : Nat
  deriving DecidableEq

namespace Date

/-- Whether a year has a day more than others. -/
def isLeapYear (year : Int) : Bool := year % 4 = 0 && (year % 100 ≠ 0 || year % 400 = 0)

/-- The number of days of a month. -/
def monthLength (year : Int) (month : Nat) : Nat :=
  if month = 2 then (if isLeapYear year then 29 else 28)
  else if month = 4 ∨ month = 6 ∨ month = 9 ∨ month = 11 then 30
  else 31

/-- The day of a year, month and day, if there is one. -/
def of? (year : Int) (month day : Nat) : Option Date :=
  if 1 ≤ month ∧ month ≤ 12 ∧ 1 ≤ day ∧ day ≤ monthLength year month then
    some ⟨year, month, day⟩
  else none

/-- The day after a day. -/
def next (d : Date) : Date :=
  if d.day < monthLength d.year d.month then { d with day := d.day + 1 }
  else if d.month < 12 then ⟨d.year, d.month + 1, 1⟩
  else ⟨d.year + 1, 1, 1⟩

/-- The day before a day. -/
def previous (d : Date) : Date :=
  if 1 < d.day then { d with day := d.day - 1 }
  else if 1 < d.month then ⟨d.year, d.month - 1, monthLength d.year (d.month - 1)⟩
  else ⟨d.year - 1, 12, 31⟩

end Date

/-- A time, without offset. -/
structure Timestamp where
  date : Date
  /-- The second of the day, less than 86400. -/
  second : Nat
  /-- Nanoseconds past the second, more than a whole second of them in a leap second. -/
  nanos : Nat
  deriving DecidableEq

namespace Timestamp

/-- The length of a day in seconds. -/
def daySeconds : Nat := 86400

/-- The number of nanoseconds of a second. -/
def secondNanos : Nat := 1_000_000_000

/-- The number of exactly `width` digits, and the characters after them. -/
def digits? (width : Nat) (cs : List Char) : Option (Nat × List Char) :=
  if (cs.take width).length = width then
    (Decimal.digits? (cs.take width)).map fun n => (n, cs.drop width)
  else none

/-- The characters after a separator. -/
def after? (separator : Char) : List Char → Option (List Char)
  | c :: cs => if c = separator then some cs else none
  | [] => none

/-- A day, and the characters after it. -/
def date? (cs : List Char) : Option (Date × List Char) := do
  let (year, cs) ← digits? 4 cs
  let (month, cs) ← digits? 2 (← after? '-' cs)
  let (day, cs) ← digits? 2 (← after? '-' cs)
  some (← Date.of? year month day, cs)

/-- The nanoseconds of a fraction, of which nine digits count, and the characters after it. -/
def fraction? : List Char → Option (Nat × List Char)
  | '.' :: cs => do
    let digits := cs.takeWhile Char.isDigit
    let counted := digits.take 9
    let n ← Decimal.digits? counted
    some (n * Nat.pow 10 (9 - counted.length), cs.drop digits.length)
  | cs => some (0, cs)

/-- The second of a day and the nanoseconds past it, and the characters after them. -/
def clock? (cs : List Char) : Option (Nat × Nat × List Char) := do
  let (hour, cs) ← digits? 2 cs
  let (minute, cs) ← digits? 2 (← after? ':' cs)
  let (second, cs) ← digits? 2 (← after? ':' cs)
  let (nanos, cs) ← fraction? cs
  if hour < 24 ∧ minute < 60 then
    let start := 3600 * hour + 60 * minute
    if second < 60 then some (start + second, nanos, cs)
    else if second = 60 then some (start + 59, secondNanos + nanos, cs)
    else none
  else none

/-- The seconds of an offset without sign, shorter than a day. -/
def span? (cs : List Char) : Option Nat := do
  let (hours, cs) ← digits? 2 cs
  let (minutes, cs) ← digits? 2 (← after? ':' cs)
  if hours < 24 ∧ minutes < 60 ∧ cs = [] then some (3600 * hours + 60 * minutes) else none

/-- The seconds that a place is ahead of the time without offset. The sign of a negative offset
may be a hyphen or the minus of typography. -/
def offset? : List Char → Option Int
  | ['Z'] | ['z'] => some 0
  | '+' :: cs => (span? cs).map Int.ofNat
  | '-' :: cs | '\u2212' :: cs => (span? cs).map fun n => -Int.ofNat n
  | _ => none

/-- The time at which clocks that are `offset` seconds ahead show a second of a day. -/
def ofLocal (date : Date) (second : Nat) (offset : Int) (nanos : Nat) : Timestamp :=
  let shifted := second - offset
  if shifted < 0 then ⟨date.previous, (shifted + daySeconds).toNat, nanos⟩
  else if shifted < daySeconds then ⟨date, shifted.toNat, nanos⟩
  else ⟨date.next, (shifted - daySeconds).toNat, nanos⟩

/-- Whether a character may stand between a date and a time of day. -/
def isJoint (c : Char) : Bool := c = 'T' || c = 't' || c = ' '

/-- The time that a text names. -/
def ofText? (s : String) : Option Timestamp := do
  let (date, cs) ← date? s.toList
  match cs with
  | joint :: cs =>
    let (second, nanos, cs) ← clock? cs
    let offset ← offset? cs
    if isJoint joint then some (ofLocal date second offset nanos) else none
  | [] => none

/-- A time whose text can be read again: its day is in a year of four digits, and its second is no
leap second. -/
def Writable (t : Timestamp) : Prop :=
  (0 ≤ t.date.year ∧ t.date.year ≤ 9999) ∧
    Date.of? t.date.year t.date.month t.date.day = some t.date ∧
      t.second < daySeconds ∧ t.nanos < secondNanos

instance (t : Timestamp) : Decidable t.Writable := inferInstanceAs (Decidable (_ ∧ _))

/-- The day from which time is counted. -/
def epoch : Date := ⟨1970, 1, 1⟩

/-- The time some seconds and nanoseconds after the beginning of the first counted day. -/
def ofEpoch (seconds nanos : Nat) : Timestamp :=
  ⟨Nat.repeat Date.next (seconds / daySeconds) epoch, seconds % daySeconds, nanos⟩

/-- A number with leading zeros up to a width. -/
def padded (width n : Nat) : String :=
  let digits := (Nat.repr n).toList
  String.ofList (List.replicate (width - digits.length) '0' ++ digits)

/-- A year in four digits, and one that does not fit with its sign. -/
def yearText (year : Int) : String :=
  if 0 ≤ year ∧ year ≤ 9999 then padded 4 year.toNat
  else (if year < 0 then "-" else "+") ++ padded 4 year.natAbs

/-- The nanoseconds of a second in three, six or nine digits, and no digits if there are none. -/
def fractionText (nanos : Nat) : String :=
  if nanos = 0 then ""
  else if nanos % 1_000_000 = 0 then "." ++ padded 3 (nanos / 1_000_000)
  else if nanos % 1_000 = 0 then "." ++ padded 6 (nanos / 1_000)
  else "." ++ padded 9 nanos

/-- A time as text. -/
def text (t : Timestamp) : String :=
  let second := t.second % 60 + t.nanos / secondNanos
  yearText t.date.year ++ "-" ++ padded 2 t.date.month ++ "-" ++ padded 2 t.date.day ++ "T"
    ++ padded 2 (t.second / 3600) ++ ":" ++ padded 2 (t.second / 60 % 60) ++ ":" ++ padded 2 second
    ++ fractionText (t.nanos % secondNanos) ++ "+00:00"

end Timestamp

/-- A time that can be written down, as clocks show it. -/
abbrev ClockTime := { time : Timestamp // time.Writable }

namespace ClockTime

/-- The last second of the last year that has four digits. -/
def latest : ClockTime := ⟨⟨⟨9999, 12, 31⟩, 86399, 0⟩, by decide⟩

/-- The time some seconds and nanoseconds after the beginning of the first counted day, and the
latest time if it cannot be written down. -/
def ofEpoch (seconds nanos : Nat) : ClockTime :=
  if h : (Timestamp.ofEpoch seconds nanos).Writable then ⟨_, h⟩ else latest

end ClockTime

end Reconcile
