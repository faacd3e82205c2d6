import Scriptlet.Decimal.Binary
import Scriptlet.Text.Blank
import Scriptlet.Text.Digit

/-! # Reading numbers

Numbers are read from text that may have blanks around it. An integer is an optional sign and a
group of decimal digits; a floating-point number may also have a fraction and an exponent, or be
one of the words for infinity and the undefined number. Digits of any script count, and a single
underscore may stand between two digits.

An integer may have any number of digits. A host that refuses to convert texts of more than 4300
digits is not modelled: what it refuses is read here.
-/
namespace Scriptlet.Decimal

open Scriptlet.Text

/-- A group of digits read from the front of a text: their value, how many there are, and what
follows them. -/
structure DigitGroup where
  /-- The value of the digits. -/
  value : Nat
  /-- How many digits were read. -/
  count : Nat
  /-- What follows the digits. -/
  rest : List Char

/-- The digits at the front of a text; after a digit, one underscore before another digit is
passed over. -/
def readDigits (value count : Nat) : List Char → DigitGroup
  | [] => ⟨value, count, []⟩
  | c :: rest =>
    match decimalValue? c with
    | some d => readDigits (10 * value + d) (count + 1) rest
    | none =>
      match c, rest with
      | '_', d :: more =>
        if count = 0 then ⟨value, count, c :: rest⟩
        else
          match decimalValue? d with
          | some v => readDigits (10 * value + v) (count + 1) more
          | none => ⟨value, count, c :: rest⟩
      | _, _ => ⟨value, count, c :: rest⟩

/-- The sign at the front of a text, set for minus, and what follows it. -/
def readSign : List Char → Bool × List Char
  | '-' :: rest => (true, rest)
  | '+' :: rest => (false, rest)
  | cs => (false, cs)

/-- The integer that a text stands for. -/
def readInteger? (s : String) : Option Int :=
  let (negative, cs) := readSign (trimBlanks s.toList)
  let group := readDigits 0 0 cs
  if group.count = 0 ∨ group.rest ≠ [] then none
  else some (if negative then -(group.value : Int) else group.value)

/-- `digits · 10^exponent` as a floating-point number. Exponents far outside the range of such
numbers are settled without computing the power. -/
def floatOfScientific (digits : Nat) (exponent : Int) : Float :=
  if digits = 0 then 0.0
  else
    let size := exponent + digitCount digits
    if 400 < size then 1.0 / 0.0
    else if size < -400 then 0.0
    else Float.ofScientific digits (exponent < 0) exponent.natAbs

/-- The exponent at the front of a text, zero if there is none; `none` if a mark has no digits
after it. -/
def readExponent : List Char → Option (Int × List Char)
  | c :: rest =>
    if c = 'e' ∨ c = 'E' then
      let (negative, cs) := readSign rest
      let group := readDigits 0 0 cs
      if group.count = 0 then none
      else some (if negative then -(group.value : Int) else group.value, group.rest)
    else some (0, c :: rest)
  | [] => some (0, [])

/-- The fraction at the front of a text, after its point. -/
def readFraction (value : Nat) : List Char → DigitGroup
  | '.' :: rest => readDigits value 0 rest
  | cs => ⟨value, 0, cs⟩

/-- The unsigned floating-point number that a text stands for. -/
def readMagnitude? (cs : List Char) : Option Float :=
  let word := String.ofList (cs.map Char.toLower)
  if word = "inf" ∨ word = "infinity" then some (1.0 / 0.0)
  else if word = "nan" then some (0.0 / 0.0)
  else
    let whole := readDigits 0 0 cs
    let fraction := readFraction whole.value whole.rest
    if whole.count + fraction.count = 0 then none
    else
      match readExponent fraction.rest with
      | some (exponent, []) => some (floatOfScientific fraction.value (exponent - fraction.count))
      | _ => none

/-- The floating-point number that a text stands for. -/
def readFloat? (s : String) : Option Float :=
  let (negative, cs) := readSign (trimBlanks s.toList)
  (readMagnitude? cs).map fun x => if negative then -x else x

end Scriptlet.Decimal
