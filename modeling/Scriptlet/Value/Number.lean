import Scriptlet.Decimal.Binary
import Scriptlet.Value

/-! # The numbers among the values

Truth values count as integers; integers, floating-point and complex numbers can be combined, and
the richer kind of the two decides how. Comparing an integer with a floating-point number is exact:
the number is taken as the binary fraction it is, and nothing is rounded.
-/
namespace Scriptlet

/-- A number of one of the three kinds. -/
inductive Number where
  /-- An integer. -/
  | int (n : Int)
  /-- A floating-point number. -/
  | float (x : Float)
  /-- A complex number. -/
  | complex (re im : Float)

/-- A value as a number, if it is one. -/
def Value.number? : Value → Option Number
  | .bool b => some (.int (if b then 1 else 0))
  | .int n => some (.int n)
  | .float x => some (.float x)
  | .complex re im => some (.complex re im)
  | _ => none

/-- A value as an integer, if it is one. -/
def Value.integer? (v : Value) : Option Int :=
  match v.number? with
  | some (.int n) => some n
  | _ => none

namespace Number

/-- The value that a number is. -/
def value : Number → Value
  | int n => .int n
  | float x => .float x
  | complex re im => .complex re im

/-- An integer as a floating-point number, unless it is too large. -/
def floatOfInt (n : Int) : Except Fault Float :=
  let x := Float.ofInt n
  if x.isInf then .error .integerTooLarge else .ok x

/-- Two numbers brought to one kind. -/
inductive Aligned where
  /-- Two integers. -/
  | ints (m n : Int)
  /-- Two floating-point numbers. -/
  | floats (x y : Float)
  /-- Two complex numbers. -/
  | complexes (a b : Float × Float)

/-- A number as a complex number. -/
def toComplex : Number → Except Fault (Float × Float)
  | int n => (floatOfInt n).map (·, 0.0)
  | float x => .ok (x, 0.0)
  | complex re im => .ok (re, im)

/-- A number that is not complex as a floating-point number. -/
def toFloat : Number → Except Fault Float
  | int n => floatOfInt n
  | float x => .ok x
  | complex re _ => .ok re

/-- Two numbers brought to the richer of their kinds, the left one first. -/
def align (a b : Number) : Except Fault Aligned :=
  match a, b with
  | int m, int n => .ok (.ints m n)
  | complex .., _ | _, complex .. => do
    let left ← a.toComplex
    let right ← b.toComplex
    return .complexes left right
  | _, _ => do
    let left ← a.toFloat
    let right ← b.toFloat
    return .floats left right

/-- How an integer compares with a floating-point number; `none` for the undefined number. -/
def compareIntFloat (n : Int) (x : Float) : Option Ordering :=
  if x.isNaN then none
  else if x.isInf then some (if x < 0.0 then .gt else .lt)
  else
    let b := Decimal.Binary.ofFloat x
    let numerator : Int := if Decimal.signBit x then -(b.numerator : Int) else b.numerator
    some (compare (n * b.denominator) numerator)

/-- How two floating-point numbers compare; `none` if one is undefined. -/
def compareFloats (x y : Float) : Option Ordering :=
  if x < y then some .lt
  else if x > y then some .gt
  else if x == y then some .eq
  else none

/-- How two numbers compare that are not complex; `none` if one is undefined or complex. -/
def compare? : Number → Number → Option Ordering
  | int m, int n => some (compare m n)
  | int m, float y => compareIntFloat m y
  | float x, int n => (compareIntFloat n x).map Ordering.swap
  | float x, float y => compareFloats x y
  | _, _ => none

/-- Whether two numbers are equal. -/
def equals : Number → Number → Bool
  | complex re im, complex re' im' => re == re' && im == im'
  | complex re im, b => im == 0.0 && (compare? (float re) b == some .eq)
  | a, complex re im => im == 0.0 && (compare? a (float re) == some .eq)
  | a, b => compare? a b == some .eq

end Number

end Scriptlet
