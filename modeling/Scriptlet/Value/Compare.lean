import Scriptlet.Value.Number

/-! # Equality and order of values

Any two values can be compared for equality; values of kinds that have nothing to do with each
other are different. Only numbers that are not complex have an order among themselves, and texts
have one among themselves, by code points.
-/
namespace Scriptlet

namespace Value

mutual

/-- Whether two values are equal. Numbers are compared as numbers whatever their kinds, records
field by field in any order. -/
def equals : Value → Value → Bool
  | record fields, record fields' => fields.length == fields'.length && fieldsIn fields fields'
  | absent, absent => true
  | noneValue, noneValue => true
  | str s, str s' => s == s'
  | symbol s, symbol s' => s == s'
  | a, b =>
    match a.number?, b.number? with
    | some m, some n => m.equals n
    | _, _ => false

/-- Whether every field of the first list stands in the second one too, with an equal value. -/
def fieldsIn : List (String × Value) → List (String × Value) → Bool
  | [], _ => true
  | (name, value) :: rest, fields =>
    (match fields.lookup name with
      | some value' => equals value value'
      | none => false) && fieldsIn rest fields

end

end Value

/-- The operators that compare two values. -/
inductive Comparison where
  /-- `<` -/
  | less
  /-- `>` -/
  | greater
  /-- `<=` -/
  | lessEqual
  /-- `>=` -/
  | greaterEqual
  /-- `==` -/
  | equal
  /-- `!=` -/
  | different
  /-- Any other text in the place of an operator. It compares nothing. -/
  | other (text : String)
deriving DecidableEq, Repr

namespace Comparison

/-- The operator as it is written. -/
def symbol : Comparison → String
  | less => "<"
  | greater => ">"
  | lessEqual => "<="
  | greaterEqual => ">="
  | equal => "=="
  | different => "!="
  | other text => text

/-- The operator that is written so. -/
def ofSymbol (text : String) : Comparison :=
  match text with
  | "<" => less
  | ">" => greater
  | "<=" => lessEqual
  | ">=" => greaterEqual
  | "==" => equal
  | "!=" => different
  | _ => other text

/-- Whether the operator asks for equality rather than order. -/
def isEquality : Comparison → Bool
  | equal | different => true
  | _ => false

/-- Whether an order operator accepts that the left side is so placed to the right one. -/
def accepts : Comparison → Ordering → Bool
  | less, o => o == .lt
  | greater, o => o == .gt
  | lessEqual, o => o != .gt
  | greaterEqual, o => o != .lt
  | _, _ => false

/-- The answer of an order operator, or the fault that the two values have no order. -/
def order (c : Comparison) (a b : Value) : Except Fault Value :=
  match a, b with
  | .str s, .str s' => .ok (.bool (c.accepts (compare s s')))
  | _, _ =>
    match a.number?, b.number? with
    | some (.complex ..), _ | _, some (.complex ..) | none, _ | _, none =>
      .error (.unordered c.symbol a.kind b.kind)
    | some m, some n => .ok (.bool ((m.compare? n).any c.accepts))

/-- The answer of a comparison. -/
def apply (c : Comparison) (a b : Value) : Except Fault Value :=
  match c with
  | equal => .ok (.bool (a.equals b))
  | different => .ok (.bool (!a.equals b))
  | other _ => .ok .absent
  | _ => c.order a b

end Comparison

end Scriptlet
