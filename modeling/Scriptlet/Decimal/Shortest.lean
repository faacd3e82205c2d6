import Scriptlet.Decimal.Binary

/-! # The shortest decimal

Of the decimal numbers that read back as a given floating-point number, the one with the fewest
digits is written, and of several with that many digits the nearest. The reals that read back as
`m · 2^q` form an interval around it, which reaches halfway to the two neighbours; its ends belong
to it exactly when `m` is even. The search goes through the decimal grids from coarse to fine and
tries the two points of each grid that enclose the number.
-/
namespace Scriptlet.Decimal

/-- The decimal number `digits · 10^exponent`. -/
structure Scientific where
  /-- All digits, as one natural number. -/
  digits : Nat
  /-- The power of ten by which they are multiplied. -/
  exponent : Int
deriving DecidableEq, Repr

/-- How `a · 10^i` compares with `n · 2^j`. -/
def compareScaled (a : Nat) (i : Int) (n : Nat) (j : Int) : Ordering :=
  compare (a * tenPow i.toNat * twoPow (-j).toNat) (n * twoPow j.toNat * tenPow (-i).toNat)

namespace Binary

/-- Whether `d` lies among the reals that read back as `b`. -/
def readsBack (b : Binary) (d : Scientific) : Bool :=
  let low := if b.narrowBelow then 4 * b.m - 1 else 4 * b.m - 2
  let high := 4 * b.m + 2
  let closed := b.m % 2 = 0
  let atLow := compareScaled d.digits d.exponent low (b.q - 2)
  let atHigh := compareScaled d.digits d.exponent high (b.q - 2)
  (atLow = .gt || (closed && atLow = .eq)) && (atHigh = .lt || (closed && atHigh = .eq))

/-- The decimal with steps of `10^exponent` that reads back as `b` and is nearest to it, if one of
the two that enclose `b` reads back at all. -/
def onGrid (b : Binary) (exponent : Int) : Option Scientific :=
  let (num, den) := scaled b.numerator b.denominator (-exponent)
  let below : Scientific := ⟨num / den, exponent⟩
  let above : Scientific := ⟨num / den + 1, exponent⟩
  match b.readsBack below, b.readsBack above with
  | true, true => some ⟨roundDiv num den, exponent⟩
  | true, false => some below
  | false, true => some above
  | false, false => none

/-- The first grid with a decimal that reads back, searched from `count` digits on. -/
def searchGrids (b : Binary) (exponent : Int) : Nat → Scientific
  | 0 => (b.onGrid exponent).getD ⟨b.numerator * Nat.pow 5 (-b.q).toNat, min b.q 0⟩
  | finer + 1 => (b.onGrid exponent).getD (searchGrids b (exponent - 1) finer)

end Binary

/-- `d` without zeros at the end of its digits, of which at most `fuel` are dropped. -/
def dropZeros (d : Scientific) : Nat → Scientific
  | 0 => d
  | fuel + 1 =>
    if d.digits % 10 = 0 ∧ d.digits ≠ 0 then dropZeros ⟨d.digits / 10, d.exponent + 1⟩ fuel else d

/-- **The shortest decimal** that reads back as the finite positive number `b`, and the nearest one
of that length. -/
def Binary.shortest (b : Binary) : Scientific :=
  let exponent := decimalExponent b.numerator b.denominator
  dropZeros (b.searchGrids exponent 17) 20

end Scriptlet.Decimal
