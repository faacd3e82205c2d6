import Scriptlet.Decimal.Shortest

/-! # Decimal layout

How a floating-point number is laid out once its digits are known: positionally, or with one digit
before the point and an exponent. `Style` collects the decisions of a style; `fixed`,
`exponential` and `general` are the layouts with a given number of digits.
-/
namespace Scriptlet.Decimal

/-- The decimal digits of `n`, at least `width` of them. -/
def paddedDigits (width n : Nat) : String :=
  let digits := Nat.toDigits 10 n
  String.ofList (List.replicate (width - digits.length) '0' ++ digits)

/-- An exponent with its sign and at least two digits, after the letter `mark`. -/
def exponentText (mark : Char) (e : Int) : String :=
  let sign := if e < 0 then "-" else "+"
  mark.toString ++ sign ++ paddedDigits 2 e.natAbs

/-- The digits of `d` written out as a positional number; `wholeSuffix` follows when there is no
fraction. -/
def positionalText (d : Scientific) (wholeSuffix : String) : String :=
  if 0 ≤ d.exponent then
    String.ofList (Nat.toDigits 10 (d.digits * tenPow d.exponent.toNat)) ++ wholeSuffix
  else
    let places := (-d.exponent).toNat
    let whole := String.ofList (Nat.toDigits 10 (d.digits / tenPow places))
    whole ++ "." ++ paddedDigits places (d.digits % tenPow places)

/-- One digit, the others after a point, and the exponent. -/
def scientificText (d : Scientific) (mark : Char) : String :=
  let digits := Nat.toDigits 10 d.digits
  let exponent := d.exponent + digits.length - 1
  let mantissa := match digits with
    | [] => ""
    | [c] => c.toString
    | c :: rest => c.toString ++ "." ++ String.ofList rest
  mantissa ++ exponentText mark exponent

/-- The decisions of a style in which numbers are written with the fewest digits. -/
structure Style where
  /-- The least exponent of the first digit that is still written positionally. -/
  least : Int
  /-- The first exponent of the first digit that is no longer written positionally. -/
  bound : Int
  /-- What follows a whole number. -/
  wholeSuffix : String

/-- The magnitude of `x` in the given style; infinity and the undefined number by name. -/
def Style.magnitude (style : Style) (x : Float) : String :=
  if x.isNaN then "nan"
  else if x.isInf then "inf"
  else
    let b := Binary.ofFloat x
    if b.m = 0 then "0" ++ style.wholeSuffix
    else
      let d := b.shortest
      let first := d.exponent + digitCount d.digits - 1
      if style.least ≤ first ∧ first < style.bound then positionalText d style.wholeSuffix
      else scientificText d 'e'

/-- Whether a minus sign is written before `x`: not before the undefined number. -/
def showsMinus (x : Float) : Bool :=
  signBit x && !x.isNaN

/-- `x` in the given style, with a minus sign where it belongs. -/
def Style.text (style : Style) (x : Float) : String :=
  (if showsMinus x then "-" else "") ++ style.magnitude x

/-! ## Layouts with a given number of digits -/

/-- `num / den` with `places` digits after the point; the point stands also before no digit when
`keepPoint` is set. -/
def fixedText (num den places : Nat) (keepPoint : Bool) : String :=
  let n := roundDiv (num * tenPow places) den
  let whole := String.ofList (Nat.toDigits 10 (n / tenPow places))
  if places = 0 then whole ++ (if keepPoint then "." else "")
  else whole ++ "." ++ paddedDigits places (n % tenPow places)

/-- `num / den` rounded to `count` significant digits: the digits and the exponent of the first. -/
def significant (num den count : Nat) : Nat × Int :=
  if num = 0 then (0, 0)
  else
    let e := decimalExponent num den
    let (n, d) := scaled num den ((count : Int) - 1 - e)
    let digits := roundDiv n d
    if digits = tenPow count then (tenPow (count - 1), e + 1) else (digits, e)

/-- The digits of `digits`, the first one before the point, and the exponent `e`. -/
def mantissaText (digits : List Char) (e : Int) (mark : Char) (keepPoint : Bool) : String :=
  let mantissa := match digits with
    | [] => ""
    | [c] => c.toString ++ (if keepPoint then "." else "")
    | c :: rest => c.toString ++ "." ++ String.ofList rest
  mantissa ++ exponentText mark e

/-- `num / den` with one digit before the point, `places` after it, and an exponent. -/
def exponentialText (num den places : Nat) (mark : Char) (keepPoint : Bool) : String :=
  let (digits, e) := significant num den (places + 1)
  mantissaText (paddedDigits (places + 1) digits).toList e mark keepPoint

/-- `num / den` with `count` significant digits, positionally if the exponent of the first digit
is at least -4 and below `count`; zeros at the end of the fraction are kept only on request. -/
def generalText (num den count : Nat) (mark : Char) (keepZeros : Bool) : String :=
  let (digits, e) := significant num den count
  let all := (paddedDigits count digits).toList
  let kept := if keepZeros then all else (all.reverse.dropWhile (· = '0')).reverse
  let kept := if kept.isEmpty then ['0'] else kept
  if -4 ≤ e ∧ e < count then
    if e < 0 then
      "0." ++ String.ofList (List.replicate (-e - 1).toNat '0' ++ kept)
    else
      let wholeCount := e.toNat + 1
      let whole := String.ofList (all.take wholeCount)
      let fraction := kept.drop wholeCount
      if fraction.isEmpty then whole ++ (if keepZeros then "." else "")
      else whole ++ "." ++ String.ofList fraction
  else mantissaText kept e mark keepZeros

end Scriptlet.Decimal
