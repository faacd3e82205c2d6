import Scriptlet.Decimal.Layout
import Scriptlet.Value

/-! # Values as text

Two written forms of a value: `Value.text` is what a program prints, `Value.quoted` is what stands
inside a larger structure. They differ on texts only, which are printed bare and quoted in
structures.

An integer is written with all its digits. A host that refuses to write more than 4300 of them is
not modelled.
-/
namespace Scriptlet.Value

/-- Floating-point numbers have the fewest digits that identify them and always a point or an
exponent; from `10^16` on and below `10^-4` the exponent is written. -/
def floatStyle : Decimal.Style :=
  ⟨-4, 16, ".0"⟩

/-- The parts of a complex number are written like other numbers, but without a needless zero
after the point. -/
def partStyle : Decimal.Style :=
  ⟨-4, 16, ""⟩

/-- A complex number: in parentheses unless its real part is the positive zero, which is left
out. -/
def complexText (re im : Float) : String :=
  if re == 0.0 && !Decimal.signBit re then partStyle.text im ++ "j"
  else
    let sign := if Decimal.showsMinus im then "" else "+"
    "(" ++ partStyle.text re ++ sign ++ partStyle.text im ++ "j)"

/-- The name of a truth value. -/
def boolText (b : Bool) : String :=
  if b then "True" else "False"

/-- A symbol with its three properties. -/
def symbolText (s : Symbol) : String :=
  s!"Symbol(type_name={Text.quoted s.typeName}, is_mutable={boolText s.isMutable}, "
    ++ s!"is_none={boolText s.isNone})"

mutual

/-- A value inside a larger structure. -/
def quoted : Value → String
  | absent => "None"
  | noneValue => "<NoneValue"
  | bool b => boolText b
  | int n => toString n
  | float x => floatStyle.text x
  | complex re im => complexText re im
  | str s => Text.quoted s
  | record fields => "\x7b" ++ ", ".intercalate (quotedFields fields) ++ "\x7d"
  | symbol s => symbolText s

/-- The fields of a record, each with its quoted name. -/
def quotedFields : List (String × Value) → List String
  | [] => []
  | (name, value) :: rest => (Text.quoted name ++ ": " ++ quoted value) :: quotedFields rest

end

/-- A value as a program prints it. -/
def text : Value → String
  | str s => s
  | v => v.quoted

end Scriptlet.Value
