/-!
# Binary numbers of 64 bits

Numbers `s · 2 ^ e` with a significand of at most 53 bits, and the rounding of exact quotients to
them.  All arithmetic is exact until the one rounding at its end.

* `Binary64` — significand and exponent;
* `Binary64.ofQuotient?` — the nearest number, of two equally near ones the even one, and nothing
  when the quotient is too large;
* `Binary64.scaleByTen?` — a number times a power of ten, in steps of at most `10 ^ 308`.
-/

namespace Embargo.Decimal

/-- The magnitude `significand · 2 ^ exponent`. -/
structure Binary64 where
  significand : Nat
  exponent : Int
  deriving DecidableEq, Repr, Inhabited

/-- `num / den`, rounded to the nearest natural number, a half to the even neighbour. -/
def roundHalfEven (num den : Nat) : Nat :=
  let q := num / den
  let r := num % den
  if 2 * r < den then q
  else if den < 2 * r then q + 1
  else q + q % 2

namespace Binary64

/-- The least exponent. -/
def minExponent : Int := -1074

/-- The greatest exponent. -/
def maxExponent : Int := 971

/-- The number zero. -/
def zero : Binary64 := ⟨0, minExponent⟩

/-- Two natural numbers whose quotient is `num / den / 2 ^ e`. -/
def shift (num den : Nat) (e : Int) : Nat × Nat :=
  if 0 ≤ e then (num, den * Nat.pow 2 e.toNat) else (num * Nat.pow 2 (-e).toNat, den)

/-- The exponent of the leading bit of `num / den`, for positive numbers. -/
def leadingBit (num den : Nat) : Int :=
  let guess : Int := (num.log2 : Int) - den.log2
  let (n, d) := shift num den guess
  if d ≤ n then guess else guess - 1

/-- The least significand of 53 bits. -/
def fullSignificand : Nat := Nat.pow 2 52

/-- The number nearest to `num / den`, the even one of two; nothing beyond the largest number. -/
def ofQuotient? (num den : Nat) : Option Binary64 :=
  if num = 0 then some zero
  else
    let e := max (leadingBit num den - 52) minExponent
    let (n, d) := shift num den e
    let s := roundHalfEven n d
    let (s, e) := if s = 2 * fullSignificand then (fullSignificand, e + 1) else (s, e)
    if maxExponent < e then none else some ⟨s, e⟩

/-- A number as a quotient of natural numbers. -/
def quotient (x : Binary64) : Nat × Nat :=
  shift x.significand 1 (-x.exponent)

/-- The product, rounded once. -/
def mul? (x y : Binary64) : Option Binary64 :=
  ofQuotient? (x.quotient.1 * y.quotient.1) (x.quotient.2 * y.quotient.2)

/-- The quotient by a positive number, rounded once. -/
def div? (x y : Binary64) : Option Binary64 :=
  ofQuotient? (x.quotient.1 * y.quotient.2) (x.quotient.2 * y.quotient.1)

/-- The power of ten, rounded; exact up to `10 ^ 22`. -/
def tenPow (k : Nat) : Binary64 :=
  (ofQuotient? (Nat.pow 10 k) 1).getD zero

/-- `x · 10 ^ k`, by one rounded multiplication or division where `k` has at most the size
`reach + 1`, and beyond that after divisions by the largest such power; nothing when the result
is too large. -/
def scaleWithin? (reach : Nat) (x : Binary64) (k : Int) : Option Binary64 :=
  if k.natAbs ≤ reach + 1 then
    if 0 ≤ k then x.mul? (tenPow k.natAbs) else x.div? (tenPow k.natAbs)
  else if x.significand = 0 then some x
  else if 0 ≤ k then none
  else
    match x.div? (tenPow (reach + 1)) with
    | none => none
    | some y => scaleWithin? reach y (k + (reach + 1))
termination_by (-k).toNat

/-- `x · 10 ^ k` in steps of at most `10 ^ 308`. -/
def scaleByTen? (x : Binary64) (k : Int) : Option Binary64 :=
  scaleWithin? 307 x k

end Binary64

end Embargo.Decimal
