import Scriptlet.Value.Compare
import Scriptlet.Value.Complex
import Scriptlet.Value.Percent

/-! # Arithmetic on values

The arithmetic operators are defined on numbers, and some of them on texts: texts are joined,
repeated and used as formats. Integer division rounds down and the remainder has the sign of the
divisor, for floating-point numbers too. Division and remainder by zero are not decided here: who
evaluates an expression has to look at the divisor first.
-/
namespace Scriptlet

/-- The operators that compute a value from two. -/
inductive Arithmetic where
  /-- `+` -/
  | add
  /-- `-` -/
  | sub
  /-- `*` -/
  | mul
  /-- `/` -/
  | div
  /-- `%` -/
  | mod
  /-- `**` -/
  | pow
  /-- Any other text in the place of an operator. It computes nothing. -/
  | other (text : String)
deriving DecidableEq, Repr

/-- The operator as it is written. -/
def Arithmetic.symbol : Arithmetic → String
  | add => "+"
  | sub => "-"
  | mul => "*"
  | div => "/"
  | mod => "%"
  | pow => "**"
  | other text => text

/-- The operator that is written so. -/
def Arithmetic.ofSymbol (text : String) : Arithmetic :=
  match text with
  | "+" => add
  | "-" => sub
  | "*" => mul
  | "/" => div
  | "%" => mod
  | "**" => pow
  | _ => other text

namespace Number

/-- The remainder of two finite magnitudes, which is exact. -/
def remainderMagnitude (x y : Float) : Float :=
  let a := Decimal.Binary.ofFloat x
  let b := Decimal.Binary.ofFloat y
  let q := min a.q b.q
  let r := (a.m * Decimal.twoPow (a.q - q).toNat) % (b.m * Decimal.twoPow (b.q - q).toNat)
  (Float.ofNat r).scaleB q

/-- The remainder with the sign of the dividend, for a divisor that is not zero. -/
def truncatedRemainder (x y : Float) : Float :=
  if x.isNaN || y.isNaN || x.isInf then 0.0 / 0.0
  else if y.isInf then x
  else
    let r := remainderMagnitude x y
    if Decimal.signBit x then -r else r

/-- The remainder with the sign of the divisor, for a divisor that is not zero. A zero remainder
has the sign of the divisor too. -/
def flooredRemainder (x y : Float) : Float :=
  let r := truncatedRemainder x y
  if r == 0.0 then if Decimal.signBit y then -0.0 else 0.0
  else if (y < 0.0) != (r < 0.0) then r + y
  else r

/-- Whether a finite floating-point number is an odd integer. -/
def isOddInteger (x : Float) : Bool :=
  let b := Decimal.Binary.ofFloat x
  b.numerator % (2 * b.denominator) == b.denominator

/-- Whether a finite floating-point number is an integer. -/
def isInteger (x : Float) : Bool :=
  let b := Decimal.Binary.ofFloat x
  b.numerator % b.denominator == 0

/-- A power of a positive base other than one, with the given sign; too large is a fault. -/
def signedPower (negative : Bool) (x y : Float) : Except Fault Float :=
  let z := Float.pow x y
  if z.isInf then .error .powerOverflow else .ok (if negative then -z else z)

/-- A power to the infinite exponent `y`, which only depends on how the base compares with one. -/
def infinitePower (x y : Float) : Float :=
  let size := x.abs
  if size == 1.0 then 1.0
  else if (y > 0.0) == (size > 1.0) then y.abs
  else 0.0

/-- The power of two floating-point numbers. A negative base with an exponent that is not whole
gives a complex number. -/
def floatPower (x y : Float) : Except Fault Value :=
  if y == 0.0 then .ok (.float 1.0)
  else if x.isNaN then .ok (.float x)
  else if y.isNaN then .ok (.float (if x == 1.0 then 1.0 else y))
  else if y.isInf then .ok (.float (infinitePower x y))
  else if x.isInf then
    let odd := isOddInteger y
    if y > 0.0 then .ok (.float (if odd then x else x.abs))
    else .ok (.float (if odd && x < 0.0 then -0.0 else 0.0))
  else if x == 0.0 then
    if y < 0.0 then .error .zeroToNegativePower
    else .ok (.float (if isOddInteger y then x else 0.0))
  else if x < 0.0 then
    if !isInteger y then (Complex.pow (x, 0.0) (y, 0.0)).map fun r => .complex r.1 r.2
    else
      let negative := isOddInteger y
      if x == -1.0 then .ok (.float (if negative then -1.0 else 1.0))
      else (signedPower negative (-x) y).map .float
  else if x == 1.0 then .ok (.float 1.0)
  else (signedPower false x y).map .float

/-- The power of an integer by repeated squaring, which takes few steps for any exponent. -/
def power (m : Int) (n : Nat) : Int :=
  if n = 0 then 1
  else
    let root := power m (n / 2)
    if n % 2 = 0 then root * root else root * root * m
termination_by n

/-- The power of two integers; a negative exponent leaves the integers. -/
def intPower (m n : Int) : Except Fault Value :=
  if 0 ≤ n then .ok (.int (power m n.toNat))
  else do floatPower (← floatOfInt m) (← floatOfInt n)

/-- The value of two complex parts. -/
def ofParts (p : Complex.Parts) : Value :=
  .complex p.1 p.2

end Number

namespace Arithmetic

/-- An operator on two integers; the divisor is not zero. -/
def onInts (op : Arithmetic) (m n : Int) : Except Fault Value :=
  match op with
  | add => .ok (.int (m + n))
  | sub => .ok (.int (m - n))
  | mul => .ok (.int (m * n))
  | div => .ok (.int (m.fdiv n))
  | mod => .ok (.int (m.fmod n))
  | pow => Number.intPower m n
  | other _ => .ok .absent

/-- An operator on two floating-point numbers; the divisor is not zero. -/
def onFloats (op : Arithmetic) (x y : Float) : Except Fault Value :=
  match op with
  | add => .ok (.float (x + y))
  | sub => .ok (.float (x - y))
  | mul => .ok (.float (x * y))
  | div => .ok (.float (x / y))
  | mod => .ok (.float (Number.flooredRemainder x y))
  | pow => Number.floatPower x y
  | other _ => .ok .absent

/-- The fault that the operator is not defined on these two values. -/
def undefinedOn (op : Arithmetic) (a b : Value) : Fault :=
  let name := match op with
    | pow => "** or pow()"
    | _ => op.symbol
  .operands name a.kind b.kind

/-- An operator on two complex numbers; the divisor is not zero, and there is no remainder. -/
def onComplexes (op : Arithmetic) (a b : Number.Complex.Parts) : Except Fault Value :=
  match op with
  | add => .ok (.complex (a.1 + b.1) (a.2 + b.2))
  | sub => .ok (.complex (a.1 - b.1) (a.2 - b.2))
  | mul => .ok (Number.ofParts (Number.Complex.mul a b))
  | div => .ok (Number.ofParts ((Number.Complex.div? a b).getD (0.0, 0.0)))
  | pow => (Number.Complex.pow a b).map Number.ofParts
  | mod | other _ => .ok .absent

/-- An operator on two numbers; the divisor is not zero. -/
def onNumbers (op : Arithmetic) (a b : Number) : Except Fault Value := do
  match ← a.align b with
  | .ints m n => op.onInts m n
  | .floats x y => op.onFloats x y
  | .complexes p q => op.onComplexes p q

/-- A text repeated `count` times. -/
def repeatText (s : String) (count : Value) : Except Fault Value :=
  match count.integer? with
  | none => .error (.repetition count.kind)
  | some n =>
    if n < -9223372036854775808 ∨ 9223372036854775808 ≤ n then .error .hugeRepetition
    else if s = "" then .ok (.str "")
    else if 9223372036854775808 ≤ s.length * n then .error .longRepetition
    else .ok (.str (String.join (List.replicate n.toNat s)))

/-- An operator on two values that are not both numbers. -/
def onOthers (op : Arithmetic) (a b : Value) : Except Fault Value :=
  match op, a, b with
  | other _, _, _ => .ok .absent
  | add, .str s, .str s' => .ok (.str (s ++ s'))
  | add, .str _, _ => .error (.concatenation b.kind)
  | mul, .str s, _ => repeatText s b
  | mul, _, .str s => repeatText s a
  | mod, .str s, _ => (Value.format s b).map .str
  | _, _, _ => .error (op.undefinedOn a b)

/-- **The value of `a op b`**, where the divisor of a division or remainder is not zero. -/
def apply (op : Arithmetic) (a b : Value) : Except Fault Value :=
  match op, a.number?, b.number? with
  | mod, some (.complex ..), some _ | mod, some _, some (.complex ..) =>
    .error (op.undefinedOn a b)
  | _, some m, some n => op.onNumbers m n
  | _, _, _ => op.onOthers a b

end Arithmetic

/-- The signs that can stand before an expression. -/
inductive Sign where
  /-- `-` -/
  | minus
  /-- `+` -/
  | plus
  /-- Any other text in the place of a sign. It computes nothing. -/
  | other (text : String)
deriving DecidableEq, Repr

namespace Sign

/-- The sign as it is written. -/
def symbol : Sign → String
  | minus => "-"
  | plus => "+"
  | other text => text

/-- The sign that is written so. -/
def ofSymbol (text : String) : Sign :=
  match text with
  | "-" => minus
  | "+" => plus
  | _ => other text

/-- The number with its sign changed. -/
def negate : Number → Number
  | .int n => .int (-n)
  | .float x => .float (-x)
  | .complex re im => .complex (-re) (-im)

/-- The value with the sign applied to it. -/
def apply (s : Sign) (v : Value) : Except Fault Value :=
  match s, v.number? with
  | other _, _ => .ok .absent
  | minus, some n => .ok (negate n).value
  | plus, some n => .ok n.value
  | _, none => .error (.signOperand s.symbol v.kind)

end Sign

end Scriptlet
