/-!
# Spans of time

A span of time is a whole number of nanoseconds, whose seconds fit into 64 bits. A span that is too
long has no double. Messages write a span in the largest unit in which it is at least one, with a
fraction only as long as it has to be.
-/

namespace Reconcile

/-- The longest span in nanoseconds: `2 ^ 64 - 1` seconds and all nanoseconds short of another. -/
def Duration.maxNanos : Nat := 18_446_744_073_709_551_615_999_999_999

/-- A span of time. -/
structure Duration where
  nanos : Nat
  nanos_le : nanos ≤ Duration.maxNanos
  deriving DecidableEq

namespace Duration

/-- A span of no time. -/
def zero : Duration := ⟨0, Nat.zero_le _⟩

instance : Inhabited Duration := ⟨zero⟩

/-- A number of nanoseconds. -/
def ofNanos (n : UInt64) : Duration where
  nanos := n.toNat
  nanos_le := by
    have := n.toNat_lt
    unfold maxNanos
    omega

/-- A number of milliseconds. -/
def ofMillis (n : UInt64) : Duration where
  nanos := n.toNat * 1_000_000
  nanos_le := by
    have := n.toNat_lt
    unfold maxNanos
    omega

/-- A number of seconds. -/
def ofSecs (n : UInt64) : Duration where
  nanos := n.toNat * 1_000_000_000
  nanos_le := by
    have := n.toNat_lt
    unfold maxNanos
    omega

/-- The whole milliseconds of a span. -/
def millis (d : Duration) : Nat := d.nanos / 1_000_000

/-- The whole seconds of a span. -/
def secs (d : Duration) : Nat := d.nanos / 1_000_000_000

/-- The longer of two spans. -/
def max (a b : Duration) : Duration :=
  ⟨Nat.max a.nanos b.nanos, Nat.max_le.2 ⟨a.nanos_le, b.nanos_le⟩⟩

/-- The shorter of two spans. -/
def min (a b : Duration) : Duration :=
  ⟨Nat.min a.nanos b.nanos, Nat.le_trans (Nat.min_le_left _ _) a.nanos_le⟩

/-- A span twice as long, if there is one. -/
def double? (d : Duration) : Option Duration :=
  if h : 2 * d.nanos ≤ maxNanos then some ⟨2 * d.nanos, h⟩ else none

/-- `n / 10 ^ places` in decimal, without zeros at the end of the fraction. -/
def decimal (n places : Nat) : String :=
  let digits := Nat.toDigits 10 (n % Nat.pow 10 places)
  let padded := List.replicate (places - digits.length) '0' ++ digits
  let fraction := (padded.reverse.dropWhile (· = '0')).reverse
  toString (n / Nat.pow 10 places) ++ if fraction = [] then "" else "." ++ String.ofList fraction

/-- The text of a span in its largest fitting unit. -/
def text (d : Duration) : String :=
  if 1_000_000_000 ≤ d.nanos then decimal d.nanos 9 ++ "s"
  else if 1_000_000 ≤ d.nanos then decimal d.nanos 6 ++ "ms"
  else if 1_000 ≤ d.nanos then decimal d.nanos 3 ++ "µs"
  else toString d.nanos ++ "ns"

/-- Spans of as many nanoseconds are equal. -/
theorem ext {a b : Duration} (h : a.nanos = b.nanos) : a = b := by
  cases a
  cases b
  simpa using h

/-- A span has no double if the double would be too long. -/
theorem double?_eq_none_iff {d : Duration} : d.double? = none ↔ maxNanos < 2 * d.nanos := by
  simp [double?]

end Duration

end Reconcile
