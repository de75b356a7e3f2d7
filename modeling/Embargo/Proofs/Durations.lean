import Embargo.Config

/-!
# Lengths of time as numbers

A length of time is kept in two parts, and a multiple of it is computed part by part, with a carry
from the one to the other.  Told in nanoseconds it is a single number, and the multiple is a plain
product.

* `Duration.toNanos` — the nanoseconds in it, from which both parts can be had again;
* `Duration.times?_eq_some_iff`, `Duration.times?_eq_none_iff` — **what a multiple is**, and that
  there is none just if its whole seconds overflow;
* `Config.window?_eq_some_iff`, `Config.window?_eq_none_iff` — the same of the time that a
  suspension can stay unconfirmed, told in milliseconds;
* `Config.window?_parts` — how that time is computed.
-/

namespace Embargo

namespace Duration

variable {d e : Duration} {n : UInt32}

/-- The nanoseconds in it. -/
def toNanos (d : Duration) : Nat :=
  d.seconds * nanosPerSecond + d.nanos

theorem toNanos_div (d : Duration) : d.toNanos / nanosPerSecond = d.seconds := by
  have hnanos := d.nanos_lt
  simp only [toNanos, nanosPerSecond] at hnanos ⊢
  omega

theorem toNanos_mod (d : Duration) : d.toNanos % nanosPerSecond = d.nanos := by
  have hnanos := d.nanos_lt
  simp only [toNanos, nanosPerSecond] at hnanos ⊢
  omega

/-- Lengths of time with as many nanoseconds are the same. -/
theorem eq_of_toNanos_eq (h : d.toNanos = e.toNanos) : d = e := by
  have hseconds : d.seconds = e.seconds := by rw [← toNanos_div, h, toNanos_div]
  have hnanos : d.nanos = e.nanos := by rw [← toNanos_mod, h, toNanos_mod]
  cases d
  cases e
  simp_all

theorem toNanos_ofMillis (ms : UInt64) : (ofMillis ms).toNanos = ms.toNat * nanosPerMilli := by
  simp only [toNanos, ofMillis, nanosPerSecond, nanosPerMilli]
  omega

theorem toMillis_eq (d : Duration) : d.toMillis = d.toNanos / nanosPerMilli := by
  simp only [toMillis, toNanos, nanosPerSecond, nanosPerMilli]
  omega

/-! ### Multiples -/

theorem toNanos_mul (d : Duration) (n : Nat) :
    d.toNanos * n = d.nanos * n + d.seconds * n * nanosPerSecond := by
  rw [toNanos, Nat.add_mul, Nat.add_comm, Nat.mul_right_comm]

/-- The whole seconds of a multiple are those of the seconds, and those carried over. -/
theorem toNanos_mul_div (d : Duration) (n : Nat) :
    d.toNanos * n / nanosPerSecond = d.seconds * n + d.nanos * n / nanosPerSecond := by
  rw [toNanos_mul, Nat.add_mul_div_right _ _ (show 0 < nanosPerSecond by decide), Nat.add_comm]

/-- The seconds leave no nanoseconds over. -/
theorem toNanos_mul_mod (d : Duration) (n : Nat) :
    d.toNanos * n % nanosPerSecond = d.nanos * n % nanosPerSecond := by
  rw [toNanos_mul, Nat.add_mul_mod_self_right]

/-- The nanoseconds of a multiple fit in 64 bits before they are carried over. -/
theorem nanos_mul_lt (d : Duration) (n : UInt32) : d.nanos * n.toNat < UInt64.size := by
  calc d.nanos * n.toNat ≤ nanosPerSecond * UInt32.size :=
        Nat.mul_le_mul (Nat.le_of_lt d.nanos_lt) (Nat.le_of_lt n.toNat_lt)
    _ < UInt64.size := by decide

/-- **There is no multiple just if its whole seconds overflow.** -/
theorem times?_eq_none_iff :
    d.times? n = none ↔ UInt64.size ≤ d.toNanos * n.toNat / nanosPerSecond := by
  rw [toNanos_mul_div, times?]
  split
  · rename_i hfits
    exact iff_of_false (by simp) (Nat.not_le.2 hfits)
  · rename_i hover
    exact iff_of_true rfl (Nat.not_lt.1 hover)

theorem toNanos_of_times? (h : d.times? n = some e) : e.toNanos = d.toNanos * n.toNat := by
  rw [times?] at h
  split at h
  · cases h
    show (d.seconds * n.toNat + d.nanos * n.toNat / nanosPerSecond) * nanosPerSecond +
      d.nanos * n.toNat % nanosPerSecond = d.toNanos * n.toNat
    rw [← toNanos_mul_div, ← toNanos_mul_mod, Nat.div_add_mod']
  · cases h

/-- **A multiple is what has so many times as many nanoseconds.** -/
theorem times?_eq_some_iff : d.times? n = some e ↔ e.toNanos = d.toNanos * n.toNat := by
  refine ⟨toNanos_of_times?, fun h => ?_⟩
  cases hmultiple : d.times? n with
  | none =>
    -- the seconds of a length of time never overflow
    rw [times?_eq_none_iff, ← h, toNanos_div] at hmultiple
    exact absurd e.seconds_lt (Nat.not_lt.2 hmultiple)
  | some m => rw [eq_of_toNanos_eq ((toNanos_of_times? hmultiple).trans h.symm)]

end Duration

namespace Config

variable {c : Config} {d : Duration}

/-- **The window is all intervals together**, to the nanosecond. -/
theorem window?_eq_some_iff : c.window? = some d ↔
    d.toNanos = c.intervalMs.toNat * c.maxRetries.toNat * nanosPerMilli := by
  rw [window?, interval, Duration.times?_eq_some_iff, Duration.toNanos_ofMillis,
    Nat.mul_right_comm]

/-- **There is none just if its whole seconds overflow.** -/
theorem window?_eq_none_iff : c.window? = none ↔
    UInt64.size ≤ c.intervalMs.toNat * c.maxRetries.toNat / 1000 := by
  have hsecond : nanosPerSecond = 1000 * nanosPerMilli := rfl
  rw [window?, interval, Duration.times?_eq_none_iff, Duration.toNanos_ofMillis,
    Nat.mul_right_comm, hsecond, Nat.mul_div_mul_right _ _ (show 0 < nanosPerMilli by decide)]

-- at the edge: the longest interval of all, a thousand times and once more
example : (Config.mk 18446744073709551615 1000).window? ≠ none ∧
    (Config.mk 18446744073709551615 1001).window? = none := by
  decide

theorem toMillis_of_window? (h : c.window? = some d) :
    d.toMillis = c.intervalMs.toNat * c.maxRetries.toNat := by
  rw [Duration.toMillis_eq, window?_eq_some_iff.1 h,
    Nat.mul_div_cancel _ (show 0 < nanosPerMilli by decide)]

/-- The seconds and the nanoseconds are multiplied apart; the nanoseconds, which fit in 64 bits,
carry over into the seconds. -/
theorem window?_parts (h : c.window? = some d) :
    c.intervalMs.toNat % 1000 * nanosPerMilli * c.maxRetries.toNat < UInt64.size ∧
    d.seconds = c.intervalMs.toNat / 1000 * c.maxRetries.toNat +
      c.intervalMs.toNat % 1000 * nanosPerMilli * c.maxRetries.toNat / nanosPerSecond ∧
    d.nanos =
      c.intervalMs.toNat % 1000 * nanosPerMilli * c.maxRetries.toNat % nanosPerSecond := by
  have hnanos := Duration.toNanos_of_times? h
  refine ⟨c.interval.nanos_mul_lt c.maxRetries, ?_, ?_⟩
  · rw [← d.toNanos_div, hnanos, Duration.toNanos_mul_div]
    rfl
  · rw [← d.toNanos_mod, hnanos, Duration.toNanos_mul_mod]
    rfl

end Config

end Embargo
