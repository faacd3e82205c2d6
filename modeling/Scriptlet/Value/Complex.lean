import Scriptlet.Value.Number

/-! # Complex arithmetic

A complex number arises as a fractional power of a negative number and can then be used like any
other number, except that it has no order and no remainder. Division scales by the larger part of
the divisor. Small whole powers are products, all others go through length and angle; the length
neither overflows nor vanishes where only a square does.
-/
namespace Scriptlet.Number.Complex

/-- A complex number, real part first. -/
abbrev Parts := Float × Float

/-- The product. -/
def mul (a b : Parts) : Parts :=
  (a.1 * b.1 - a.2 * b.2, a.1 * b.2 + a.2 * b.1)

/-- The quotient; `none` for a zero divisor. -/
def div? (a b : Parts) : Option Parts :=
  let re := b.1.abs
  let im := b.2.abs
  if re ≥ im then
    if re == 0.0 then none
    else
      let ratio := b.2 / b.1
      let denominator := b.1 + b.2 * ratio
      some ((a.1 + a.2 * ratio) / denominator, (a.2 - a.1 * ratio) / denominator)
  else if im ≥ re then
    let ratio := b.1 / b.2
    let denominator := b.1 * ratio + b.2
    some ((a.1 * ratio + a.2) / denominator, (a.2 * ratio - a.1) / denominator)
  else some (0.0 / 0.0, 0.0 / 0.0)

/-- The powers `p`, `p²`, `p⁴`, … multiplied into `r` where the binary digits of `n` are one, for
at most `fuel` digits. -/
def powerLoop (r p : Parts) (n : Nat) : Nat → Parts
  | 0 => r
  | fuel + 1 =>
    if n = 0 then r
    else powerLoop (if n % 2 = 1 then mul r p else r) (mul p p) (n / 2) fuel

/-- A natural power by repeated squaring. -/
def power (a : Parts) (n : Nat) : Parts :=
  powerLoop (1.0, 0.0) a n (n + 1)

/-- The root of `a² + b²`, where `a ≥ b` and no square is too large or too small. What rounding has
added to the root is estimated and taken off. -/
def correctedRoot (a b : Float) : Float :=
  let root := (a * a + b * b).sqrt
  let added :=
    if root ≤ 2.0 * b then
      let rest := root - b
      a * (2.0 * rest - a) + (rest - 2.0 * (a - b)) * rest
    else
      let rest := root - a
      2.0 * rest * (a - 2.0 * b) + ((4.0 * rest - b) * b + rest * rest)
  root - added / (2.0 * root)

/-- The length. Parts whose squares would be too large or too small are scaled before, and a part
that does not count beside the other is only added to it. -/
def length (a : Parts) : Float :=
  let x := a.1.abs
  let y := a.2.abs
  let larger := if x < y then y else x
  let smaller := if x < y then x else y
  let scale := Float.scaleB 1.0 (-600)
  let negligible := Float.scaleB 1.0 (-54)
  if x.isInf || y.isInf then 1.0 / 0.0
  else if larger > Float.scaleB 1.0 511 then
    if smaller ≤ larger * negligible then larger + smaller
    else correctedRoot (larger * scale) (smaller * scale) / scale
  else if smaller < Float.scaleB 1.0 (-459) then
    if larger ≥ smaller / negligible then larger + smaller
    else correctedRoot (larger / scale) (smaller / scale) * scale
  else if smaller ≤ larger * negligible then larger + smaller
  else correctedRoot larger smaller

/-- Any power, through length and angle; `none` for a power of zero that does not exist, and for
an infinite angle. -/
def polarPower? (a b : Parts) : Option Parts :=
  if b.1 == 0.0 && b.2 == 0.0 then some (1.0, 0.0)
  else if a.1 == 0.0 && a.2 == 0.0 then
    if b.2 != 0.0 || b.1 < 0.0 then none else some (0.0, 0.0)
  else
    let angle := Float.atan2 a.2 a.1
    let size := Float.pow (length a) b.1
    let phase := angle * b.1
    let (size, phase) :=
      if b.2 != 0.0 then (size / Float.exp (angle * b.2), phase + b.2 * Float.log (length a))
      else (size, phase)
    if phase.isInf then none else some (size * Float.cos phase, size * Float.sin phase)

/-- The exponent as an integer, if it is real, whole and at most a hundred in magnitude. -/
def smallExponent? (b : Parts) : Option Int :=
  if b.2 == 0.0 && b.1 == b.1.floor && b.1.abs ≤ 100.0 then
    let magnitude := (Decimal.Binary.ofFloat b.1).floor
    some (if b.1 < 0.0 then -(magnitude : Int) else magnitude)
  else none

/-- The power `a ** b`. -/
def pow (a b : Parts) : Except Fault Parts :=
  let result? := match smallExponent? b with
    | some n => if 0 < n then some (power a n.natAbs) else div? (1.0, 0.0) (power a n.natAbs)
    | none => polarPower? a b
  match result? with
  | none => .error .complexZeroPower
  | some r => if r.1.isInf || r.2.isInf then .error .complexPowerOverflow else .ok r

end Scriptlet.Number.Complex
