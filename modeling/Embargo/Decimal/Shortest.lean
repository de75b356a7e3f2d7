import Embargo.Decimal.Binary64

/-!
# The shortest decimal that reads back

A binary number stands for every real number that rounds to it.  Of the decimals in that interval
one with the fewest digits is written, and of those the one nearest to the number.

* `Digits` — digits and the decimal exponent of the first of them;
* `Binary64.shortest` — the digits chosen for a positive number;
* `Layout` — the format's decisions, `Layout.render` — the text.
-/

namespace Embargo.Decimal

/-- The decimal `d₁.d₂d₃… · 10 ^ exponent`. -/
structure Digits where
  digits : List Nat
  exponent : Int
  deriving DecidableEq, Repr, Inhabited

/-- The decimal digits of a natural number, the most significant one first. -/
def digitsOf (n : Nat) : List Nat :=
  (Nat.toDigits 10 n).map fun c => c.toNat - 48

/-- The digits without the zeros at their end. -/
def withoutTrailingZeros (ds : List Nat) : List Nat :=
  (ds.reverse.dropWhile (· = 0)).reverse

/-- The largest `k` with `10 ^ k ≤ num / den`, for quotients above `10 ^ -400`. -/
def decimalExponent (num den : Nat) : Int :=
  if den ≤ num then ((digitsOf (num / den)).length : Int) - 1
  else
    match (List.range 400).find? fun t => den ≤ num * Nat.pow 10 t with
    | some t => -(t : Int)
    | none => 0

/-- The reals that round to a number, in quarters of its last place: the unit as a quotient, the
number itself, the lower and the upper end, and whether the ends belong to it. -/
structure Interval where
  unitNum : Nat
  unitDen : Nat
  middle : Nat
  low : Nat
  high : Nat
  closed : Bool

/-- The reals that round to `x`: half a place on either side, but a quarter below a power of two. -/
def Binary64.interval (x : Binary64) : Interval :=
  let (n, d) := Binary64.shift 1 1 (2 - x.exponent)
  let below :=
    if x.significand = Binary64.fullSignificand ∧ Binary64.minExponent < x.exponent then 1 else 2
  { unitNum := n
    unitDen := d
    middle := 4 * x.significand
    low := 4 * x.significand - below
    high := 4 * x.significand + 2
    closed := x.significand % 2 = 0 }

/-- The decimals `d · 10 ^ j` that lie next to a number: the one in the interval, the nearer of
two, the even one of two equally near ones. -/
def Interval.pick? (i : Interval) (j : Int) : Option Nat :=
  let (sn, sd) := if 0 ≤ j then (Nat.pow 10 j.toNat, 1) else (1, Nat.pow 10 (-j).toNat)
  -- `d · 10 ^ j` against `c` units is `d * grid` against `c * scale`
  let grid := sn * i.unitDen
  let scale := i.unitNum * sd
  let inside := fun d : Nat =>
    if i.closed then i.low * scale ≤ d * grid ∧ d * grid ≤ i.high * scale
    else i.low * scale < d * grid ∧ d * grid < i.high * scale
  let d := i.middle * scale / grid
  let below := i.middle * scale - d * grid
  let above := (d + 1) * grid - i.middle * scale
  if inside d then
    if inside (d + 1) then
      if below < above then some d
      else if above < below then some (d + 1)
      else some (d + d % 2)
    else some d
  else if inside (d + 1) then some (d + 1)
  else none

/-- The shortest digits that read back as a positive number; 17 always suffice. -/
def Binary64.shortest (x : Binary64) : Digits :=
  let i := x.interval
  let k := decimalExponent x.quotient.1 x.quotient.2
  let grids : List Int := (List.range 17).map fun n : Nat => k - n
  match grids.findSome? fun j => (i.pick? j).map fun d => (d, j) with
  | none => ⟨[0], 0⟩
  | some (d, j) =>
      let ds := digitsOf d
      ⟨withoutTrailingZeros ds, j + ds.length - 1⟩

/-- How a decimal is laid out. -/
structure Layout where
  /-- The least exponent that is written positionally. -/
  least : Int
  /-- The first exponent that is no longer written positionally. -/
  limit : Int
  /-- The least number of digits of a written exponent. -/
  exponentWidth : Nat

/-- Digits as text. -/
def digitText (ds : List Nat) : String :=
  String.ofList (ds.map Nat.digitChar)

/-- A number of zeros as text. -/
def zeros (n : Nat) : String :=
  String.ofList (List.replicate n '0')

/-- The text of a positive decimal.  Positional texts always hold a point. -/
def Layout.render (l : Layout) (x : Digits) : String :=
  let n : Int := x.digits.length
  if l.least ≤ x.exponent ∧ x.exponent < l.limit then
    if x.exponent < 0 then
      "0." ++ zeros (-x.exponent - 1).toNat ++ digitText x.digits
    else if n ≤ x.exponent + 1 then
      digitText x.digits ++ zeros (x.exponent + 1 - n).toNat ++ ".0"
    else
      digitText (x.digits.take (x.exponent.toNat + 1)) ++ "."
        ++ digitText (x.digits.drop (x.exponent.toNat + 1))
  else
    let e := toString x.exponent.natAbs
    digitText (x.digits.take 1)
      ++ (if x.digits.length ≤ 1 then "" else "." ++ digitText (x.digits.drop 1))
      ++ "e" ++ (if x.exponent < 0 then "-" else "+") ++ zeros (l.exponentWidth - e.length) ++ e

/-- The text of a number of either sign. -/
def Layout.text (l : Layout) (negative : Bool) (x : Binary64) : String :=
  (if negative then "-" else "")
    ++ (if x.significand = 0 then "0.0" else l.render x.shortest)

end Embargo.Decimal
