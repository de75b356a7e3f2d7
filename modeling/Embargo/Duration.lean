/-!
# Durations

Lengths of time as whole seconds in 64 bits and nanoseconds below one second.

* `Duration` — the two parts;
* `Duration.ofMillis`, `Duration.toMillis` — to and from milliseconds;
* `Duration.times?` — a multiple, unless its seconds overflow.
-/

namespace Embargo

/-- Nanoseconds in a second. -/
def nanosPerSecond : Nat := 1000000000

/-- Nanoseconds in a millisecond. -/
def nanosPerMilli : Nat := 1000000

/-- A length of time. -/
structure Duration where
  seconds : Nat
  nanos : Nat
  seconds_lt : seconds < UInt64.size
  nanos_lt : nanos < nanosPerSecond
  deriving DecidableEq, Repr

namespace Duration

/-- So many milliseconds. -/
def ofMillis (ms : UInt64) : Duration where
  seconds := ms.toNat / 1000
  nanos := ms.toNat % 1000 * nanosPerMilli
  seconds_lt := Nat.lt_of_le_of_lt (Nat.div_le_self _ _) ms.toNat_lt
  nanos_lt := by
    have := Nat.mod_lt ms.toNat (show 0 < 1000 by decide)
    simp only [nanosPerMilli, nanosPerSecond]; omega

/-- The whole milliseconds in it. -/
def toMillis (d : Duration) : Nat :=
  d.seconds * 1000 + d.nanos / nanosPerMilli

/-- So many times as long: the nanoseconds carry over into the seconds, which must fit. -/
def times? (d : Duration) (n : UInt32) : Option Duration :=
  let total := d.nanos * n.toNat
  let seconds := d.seconds * n.toNat + total / nanosPerSecond
  if h : seconds < UInt64.size then
    some ⟨seconds, total % nanosPerSecond, h, Nat.mod_lt _ (by decide)⟩
  else none

end Duration

end Embargo
