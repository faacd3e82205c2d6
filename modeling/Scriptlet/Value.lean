import Scriptlet.Fault

/-! # Values

What a variable holds while a program is checked or run. Values are dynamic: an operator looks at
the kinds of its operands when it is applied. Besides the numbers, texts and truth values that
programs compute with, a scope can hold the typed symbols that checking a declaration leaves there.
-/
namespace Scriptlet

/-- What the checker records about a declared variable. -/
structure Symbol where
  /-- The declared type, by name. -/
  typeName : String
  /-- Whether the variable may be assigned to. -/
  isMutable : Bool
  /-- Whether it was declared without a value. -/
  isNone : Bool
deriving DecidableEq, Repr

/-- A value at run time. -/
inductive Value where
  /-- No value: what an unknown variable reads as, and what a call gives that has no result. -/
  | absent
  /-- The value of the literal `none`. -/
  | noneValue
  /-- A truth value; among numbers it counts as one or zero. -/
  | bool (b : Bool)
  /-- An integer of any size. -/
  | int (n : Int)
  /-- A floating-point number. -/
  | float (x : Float)
  /-- A complex number, the fractional power of a negative number. -/
  | complex (re im : Float)
  /-- A text. -/
  | str (s : String)
  /-- Named fields in the order in which they were given. -/
  | record (fields : List (String × Value))
  /-- A declared variable. -/
  | symbol (s : Symbol)

namespace Value

/-- The name of a value's kind, as messages give it. -/
def kind : Value → String
  | absent => "NoneType"
  | noneValue => "NoneValue"
  | bool _ => "bool"
  | int _ => "int"
  | float _ => "float"
  | complex _ _ => "complex"
  | str _ => "str"
  | record _ => "dict"
  | symbol _ => "Symbol"

/-- Whether a value counts as true in a condition: all but the zeros, the empty text, the empty
record, `false` and the absent value do. -/
def truth : Value → Bool
  | absent => false
  | noneValue => true
  | bool b => b
  | int n => n ≠ 0
  | float x => x != 0.0
  | complex re im => re != 0.0 || im != 0.0
  | str s => s ≠ ""
  | record fields => !fields.isEmpty
  | symbol _ => true

end Value

end Scriptlet
