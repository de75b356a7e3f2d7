/-!
# Rows of digits

* `digitValue` — the value of a decimal digit;
* `naturalOf` — the number that a row of digits stands for, zeros in front included;
* `naturalOf_toDigits` — the row of digits of a number stands for it.
-/

namespace Embargo.Text

/-- The value of a decimal digit. -/
def digitValue (c : Char) : Nat :=
  c.toNat - 48

/-- The number that a row of digits stands for. -/
def naturalOf (ds : List Char) : Nat :=
  ds.foldl (fun n c => n * 10 + digitValue c) 0

/-- The digits in front count for as many places as follow them. -/
theorem foldl_digits (ds : List Char) (n : Nat) :
    ds.foldl (fun n c => n * 10 + digitValue c) n =
      n * Nat.pow 10 ds.length + naturalOf ds := by
  induction ds generalizing n with
  | nil => simp [naturalOf]
  | cons c ds ih =>
    rw [naturalOf, List.foldl_cons, List.foldl_cons, ih, ih (0 * 10 + digitValue c),
      List.length_cons, Nat.pow, Nat.add_mul, Nat.zero_mul, Nat.zero_add, Nat.add_assoc,
      Nat.mul_assoc, Nat.mul_comm 10]
    rfl

/-- The library's value of a row of digits. -/
theorem naturalOf_eq_ofDigitChars (ds : List Char) : naturalOf ds = Nat.ofDigitChars 10 ds 0 := by
  rw [naturalOf, Nat.ofDigitChars_eq_foldl]
  congr 1
  funext n c
  rw [digitValue, Nat.mul_comm]
  rfl

theorem naturalOf_toDigits (n : Nat) : naturalOf (Nat.toDigits 10 n) = n := by
  rw [naturalOf_eq_ofDigitChars, Nat.ofDigitChars_ten_toDigits]

end Embargo.Text
