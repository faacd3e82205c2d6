import Scriptlet.Decimal.Layout
import Scriptlet.Value.Number
import Scriptlet.Value.Text

/-! # Writing a value by a format text

`text % value` writes the value into the places that the text marks with directives. A directive
is a percent sign, an optional field name in parentheses, flags, a width, a precision and a letter:
`d`, `i`, `u` for integers, `o`, `x`, `X` for other bases, `e`, `f`, `g` (and capitals) for
floating-point numbers, `c` for a character, `s`, `r`, `a` for any value. A double percent sign
stands for itself. The value has to be used exactly once, unless it is a record, whose fields can
be used at will.
-/
namespace Scriptlet.Value

/-- How a directive wants its value to be written. -/
structure Directive where
  /-- Pad on the right. -/
  leftAlign : Bool := false
  /-- Write a plus sign before numbers that are not negative. -/
  plus : Bool := false
  /-- Write a blank before numbers that are not negative. -/
  blank : Bool := false
  /-- Use the alternate form: base marks, kept points and zeros. -/
  alternate : Bool := false
  /-- Pad numbers with zeros. -/
  zeros : Bool := false
  /-- The least number of characters. -/
  width : Nat := 0
  /-- The number of digits, or the greatest number of characters of a text. -/
  precision : Option Nat := none
  /-- The letter that says what is written. -/
  letter : Char := 's'

/-- Where a format text is being read. -/
structure FormatCursor where
  /-- What has not been read. -/
  rest : List Char
  /-- How many characters have been read. -/
  index : Nat

/-- The values that directives can still use. -/
structure Supply where
  /-- The value for the next directive. -/
  value : Value
  /-- Whether it was used. -/
  used : Bool
  /-- The fields that can be named, if the formatted value is a record. -/
  fields : Option (List (String × Value))

/-- Takes the next value out of the supply. -/
def Supply.take (s : Supply) : Except Fault (Value × Supply) :=
  if s.used then .error (.format .tooFewValues) else .ok (s.value, { s with used := true })

/-! ## Reading a directive -/

/-- The next character, or the fault that the directive is incomplete. -/
def FormatCursor.next (c : FormatCursor) : Except Fault (Char × FormatCursor) :=
  match c.rest with
  | [] => .error (.format .incomplete)
  | ch :: rest => .ok (ch, ⟨rest, c.index + 1⟩)

/-- The characters up to the parenthesis that closes the field name, with `depth` still open. -/
def readKey (depth : Nat) (name : List Char) (index : Nat) :
    List Char → Except Fault (String × FormatCursor)
  | [] => .error (.format .incompleteKey)
  | ch :: rest =>
    if ch = ')' then
      if depth = 0 then .ok (String.ofList name.reverse, ⟨rest, index + 1⟩)
      else readKey (depth - 1) (ch :: name) (index + 1) rest
    else readKey (if ch = '(' then depth + 1 else depth) (ch :: name) (index + 1) rest

/-- Reads a field name, if one is given, and makes that field the next value. -/
def readField (c : FormatCursor) (s : Supply) : Except Fault (FormatCursor × Supply) :=
  match c.rest with
  | '(' :: rest =>
    match s.fields with
    | none => .error (.format .noFields)
    | some fields => do
      let (name, c) ← readKey 0 [] (c.index + 1) rest
      match fields.lookup name with
      | none => .error (.format (.missingKey name))
      | some value => return (c, { s with value := value, used := false })
  | _ => return (c, s)

/-- Reads the flags. The character after them is returned too. -/
def readFlags (d : Directive) (index : Nat) :
    List Char → Except Fault (Directive × Char × FormatCursor)
  | [] => .error (.format .incomplete)
  | ch :: rest =>
    match ch with
    | '-' => readFlags { d with leftAlign := true } (index + 1) rest
    | '+' => readFlags { d with plus := true } (index + 1) rest
    | ' ' => readFlags { d with blank := true } (index + 1) rest
    | '#' => readFlags { d with alternate := true } (index + 1) rest
    | '0' => readFlags { d with zeros := true } (index + 1) rest
    | _ => .ok (d, ch, ⟨rest, index + 1⟩)

/-- What bounds a width or a precision, and the faults of one that is too large. -/
structure SizeBound where
  /-- The largest size. -/
  limit : Nat
  /-- The fault of a size that is written in digits. -/
  written : FormatFault
  /-- The fault of a size that is given by a value. -/
  given : FormatFault

/-- A width fits into a machine word with a sign. -/
def widthBound : SizeBound :=
  ⟨9223372036854775807, .hugeWidth, .widthOverflow⟩

/-- A precision fits into half a machine word with a sign. -/
def precisionBound : SizeBound :=
  ⟨2147483647, .hugePrecision, .precisionOverflow⟩

/-- Whether an integer can be given as a size; there is one more negative than positive one. -/
def SizeBound.admits (b : SizeBound) (size : Int) : Bool :=
  -(b.limit : Int) - 1 ≤ size && size ≤ b.limit

/-- Reads further digits of a size. The character after them is returned too. -/
def readSizeDigits (b : SizeBound) (size index : Nat) :
    List Char → Except Fault (Nat × Char × FormatCursor)
  | [] => .error (.format .incomplete)
  | ch :: rest =>
    if ch.isDigit then
      let size := 10 * size + (ch.toNat - '0'.toNat)
      if b.limit < size then .error (.format b.written)
      else readSizeDigits b size (index + 1) rest
    else .ok (size, ch, ⟨rest, index + 1⟩)

/-- A size that begins with the character `ch`: digits, or a star for the next value. -/
def readSize (ch : Char) (b : SizeBound) (c : FormatCursor) (s : Supply) :
    Except Fault (Option Int × Char × FormatCursor × Supply) :=
  if ch = '*' then do
    let (value, s) ← s.take
    match value.integer? with
    | none => .error (.format .sizeRequired)
    | some size =>
      if b.admits size then do
        let (ch, c) ← c.next
        return (some size, ch, c, s)
      else .error (.format b.given)
  else if ch.isDigit then do
    let (size, ch, c) ← readSizeDigits b (ch.toNat - '0'.toNat) c.index c.rest
    return (some size, ch, c, s)
  else return (none, ch, c, s)

/-- Reads what follows the percent sign. -/
def readDirective (c : FormatCursor) (s : Supply) :
    Except Fault (Directive × FormatCursor × Supply) := do
  let (c, s) ← readField c s
  let (d, ch, c) ← readFlags {} c.index c.rest
  let (width, ch, c, s) ← readSize ch widthBound c s
  let d := match width with
    | none => d
    | some w => { d with width := w.natAbs, leftAlign := d.leftAlign || w < 0 }
  let (d, ch, c, s) ←
    if ch = '.' then do
      let (ch, c) ← c.next
      let (size, ch, c, s) ← readSize ch precisionBound c s
      pure ({ d with precision := some (size.getD 0).toNat }, ch, c, s)
    else pure (d, ch, c, s)
  let (ch, c) ← if ch = 'h' ∨ ch = 'l' ∨ ch = 'L' then c.next else pure (ch, c)
  return ({ d with letter := ch }, c, s)

/-! ## Writing a value -/

/-- A sign, a base mark and the rest, padded to the width of the directive. -/
def Directive.pad (d : Directive) (numeric : Bool) (sign mark body : String) : String :=
  let gap := d.width - (sign.length + mark.length + body.length)
  let filling (ch : Char) := String.ofList (List.replicate gap ch)
  if d.leftAlign then sign ++ mark ++ body ++ filling ' '
  else if numeric && d.zeros then sign ++ mark ++ filling '0' ++ body
  else filling ' ' ++ sign ++ mark ++ body

/-- The sign that is written before a number. -/
def Directive.signText (d : Directive) (negative : Bool) : String :=
  if negative then "-" else if d.plus then "+" else if d.blank then " " else ""

/-- The integer that is written for a value by a directive for integers. -/
def Directive.integerOf (d : Directive) (v : Value) : Except Fault Int :=
  match v.number? with
  | some (.int n) => .ok n
  | some (.float x) =>
    if d.letter = 'o' ∨ d.letter = 'x' ∨ d.letter = 'X' then
      .error (.format (.integerRequired d.letter v.kind))
    else if x.isNaN then .error (.format .undefinedNumber)
    else if x.isInf then .error (.format .infinite)
    else
      let magnitude : Int := (Decimal.Binary.ofFloat x).floor
      .ok (if x < 0.0 then -magnitude else magnitude)
  | _ =>
    if d.letter = 'o' ∨ d.letter = 'x' ∨ d.letter = 'X' then
      .error (.format (.integerRequired d.letter v.kind))
    else .error (.format (.realRequired d.letter v.kind))

/-- The base of an integer directive. -/
def Directive.base (d : Directive) : Nat :=
  match d.letter with
  | 'o' => 8
  | 'x' | 'X' => 16
  | _ => 10

/-- Writes an integer. -/
def Directive.integerText (d : Directive) (n : Int) : String :=
  let digits := Nat.toDigits d.base n.natAbs
  let digits := if d.letter = 'X' then digits.map Char.toUpper else digits
  let body := String.ofList
    (List.replicate (d.precision.getD 0 - digits.length) '0' ++ digits)
  let mark := if d.alternate && d.base != 10 then "0" ++ d.letter.toString else ""
  d.pad true (d.signText (n < 0)) mark body

/-- The floating-point number that is written for a value. -/
def floatOf (v : Value) : Except Fault Float :=
  match v.number? with
  | some (.int n) => Number.floatOfInt n
  | some (.float x) => .ok x
  | _ => .error (.format (.floatRequired v.kind))

/-- Writes a floating-point number. -/
def Directive.floatText (d : Directive) (x : Float) : String :=
  let capital := d.letter.isUpper
  let mark := if capital then 'E' else 'e'
  let precision := d.precision.getD 6
  let body :=
    if x.isNaN then if capital then "NAN" else "nan"
    else if x.isInf then if capital then "INF" else "inf"
    else
      let b := Decimal.Binary.ofFloat x
      match d.letter.toLower with
      | 'f' => Decimal.fixedText b.numerator b.denominator precision d.alternate
      | 'e' => Decimal.exponentialText b.numerator b.denominator precision mark d.alternate
      | _ => Decimal.generalText b.numerator b.denominator (max precision 1) mark d.alternate
  d.pad true (d.signText (Decimal.showsMinus x)) "" body

/-- The character that is written for a value. -/
def characterOf (v : Value) : Except Fault Char :=
  match v with
  | .str s =>
    match s.toList with
    | [c] => .ok c
    | _ => .error (.format .characterRequired)
  | _ =>
    match v.integer? with
    | none => .error (.format .characterRequired)
    | some n =>
      if 0 ≤ n ∧ n < 0x110000 then .ok (Char.ofNat n.toNat)
      else .error (.format .characterRange)

/-- Writes a text, cut to the precision. -/
def Directive.plainText (d : Directive) (s : String) : String :=
  let cut := match d.precision with
    | some p => String.ofList (s.toList.take p)
    | none => s
  d.pad false "" "" cut

/-- Writes a value as the directive says; `index` is where its letter stands. -/
def Directive.write (d : Directive) (v : Value) (index : Nat) : Except Fault String :=
  match d.letter with
  | 's' => .ok (d.plainText v.text)
  | 'r' => .ok (d.plainText v.quoted)
  | 'a' =>
    let ascii := match v with
      | .str s => Text.quotedAscii s
      | _ => v.quoted
    .ok (d.plainText ascii)
  | 'd' | 'i' | 'u' | 'o' | 'x' | 'X' => (d.integerOf v).map d.integerText
  | 'e' | 'E' | 'f' | 'F' | 'g' | 'G' => (floatOf v).map d.floatText
  | 'c' => (characterOf v).map fun c => d.pad false "" "" c.toString
  | letter => .error (.format (.unsupported letter index))

/-- Goes through the format text, with what has been written so far. Every step reads a character,
so the length of the text is `fuel` enough. -/
def formatLoop (out : String) (c : FormatCursor) (s : Supply) : Nat → Except Fault String
  | 0 => .error .exhausted
  | fuel + 1 =>
    match c.rest with
    | [] =>
      if !s.used && s.fields.isNone then .error (.format .tooManyValues) else .ok out
    | '%' :: '%' :: rest => formatLoop (out.push '%') ⟨rest, c.index + 2⟩ s fuel
    | '%' :: rest => do
      let (d, c, s) ← readDirective ⟨rest, c.index + 1⟩ s
      let (value, s) ← s.take
      let written ← d.write value (c.index - 1)
      formatLoop (out ++ written) c s fuel
    | ch :: rest => formatLoop (out.push ch) ⟨rest, c.index + 1⟩ s fuel

/-- The format text with the value written into it. -/
def format (text : String) (value : Value) : Except Fault String :=
  let fields := match value with
    | .record fields => some fields
    | _ => none
  formatLoop "" ⟨text.toList, 0⟩ ⟨value, false, fields⟩ (text.length + 1)

end Scriptlet.Value
