/-! # Floating-point numbers as binary fractions

A finite floating-point number is `± m · 2^q` for a natural `m` and an integer `q`. Everything
exact that is said about such a number (its digits, its remainder, its order among the integers)
is computed from `m` and `q` in integer arithmetic.
-/
namespace Scriptlet.Decimal

/-- A power of two. -/
def twoPow (n : Nat) : Nat :=
  Nat.pow 2 n

/-- A power of ten. -/
def tenPow (n : Nat) : Nat :=
  Nat.pow 10 n

/-- A finite non-negative floating-point number, `m · 2^q`. -/
structure Binary where
  /-- The significand, below `2^53`. -/
  m : Nat
  /-- The binary exponent. -/
  q : Int
  /-- Whether the gap to the next smaller number is half the gap to the next larger one. -/
  narrowBelow : Bool
deriving DecidableEq, Repr

/-- The magnitude of a finite floating-point number. -/
def Binary.ofFloat (x : Float) : Binary :=
  let bits := x.toBits.toNat
  let exponent : Nat := bits / twoPow 52 % twoPow 11
  let fraction := bits % twoPow 52
  if exponent = 0 then ⟨fraction, -1074, false⟩
  else ⟨twoPow 52 + fraction, (exponent : Int) - 1075, fraction = 0 && 1 < exponent⟩

/-- Whether the sign bit is set; so it is for negative zero. -/
def signBit (x : Float) : Bool :=
  twoPow 63 ≤ x.toBits.toNat

namespace Binary

/-- The numerator of `m · 2^q` over `denominator`. -/
def numerator (b : Binary) : Nat :=
  b.m * twoPow b.q.toNat

/-- A power of two by which `m · 2^q` has to be multiplied to give an integer. -/
def denominator (b : Binary) : Nat :=
  twoPow (-b.q).toNat

/-- The integer part of `m · 2^q`. -/
def floor (b : Binary) : Nat :=
  b.numerator / b.denominator

end Binary

/-- The integer nearest to `num / den`; of two equally near ones the even one. -/
def roundDiv (num den : Nat) : Nat :=
  let quotient := num / den
  let twice := 2 * (num % den)
  if twice < den then quotient
  else if den < twice then quotient + 1
  else quotient + quotient % 2

/-- How many decimal digits `n` has; one for zero. -/
def digitCount (n : Nat) : Nat :=
  (Nat.toDigits 10 n).length

/-- The `e` with `10^e ≤ num / den < 10^(e+1)`, for positive `num` and `den`. -/
def decimalExponent (num den : Nat) : Int :=
  if den ≤ num then (digitCount (num / den) : Int) - 1
  else
    let below := digitCount (den / num)
    if den ≤ num * tenPow (below - 1) then 1 - (below : Int) else -(below : Int)

/-- `num / den · 10^places` as a fraction. -/
def scaled (num den : Nat) (places : Int) : Nat × Nat :=
  (num * tenPow places.toNat, den * tenPow (-places).toNat)

end Scriptlet.Decimal
