import Scriptlet.Typing.Condition

/-! # Checking programs

A declaration of a number or a truth value is checked against its type, and recorded in the scope
if it fits. A program is checked statement by statement: its declarations, and the conditions and
blocks of its conditional statements. What stands behind `else`, and in loops, is not looked at;
nor are texts, which can be declared with any value.
-/
namespace Scriptlet.Check

/-- A variable as the initial value of a variable of the given type, which messages name `shown`. -/
def initialVariable (scope : ScopeId) (type shown name : String) (v : Node) : Check Bool := do
  let actual ← variableType scope name
  if actual = unknownType then
    report (.unknownOfType name shown) v
    return false
  else if actual ≠ type then
    report (.initialKind type "variable" name) v
    return false
  else return true

/-- An initial value that cannot be of the given type. -/
def initialOther (type : String) (v : Node) : Check Bool := do
  let label ← ofExcept v.label
  report (.initialExpression type label) v
  return false

/-- The initial value of a number of the given type, whose literals are of the given kind. -/
def initialNumber (scope : ScopeId) (type : String) (kind : LiteralKind) (v : Node) :
    Check Bool := do
  match v with
  | .signed .. => return (← signed scope v type).2
  | .literal k _ _ => if k = kind then return true else initialOther type v
  | .empty _ => return true
  | .identifier name _ => initialVariable scope type type name v
  | .arithmetic .. => return (← arithmetic scope v type).2
  | _ => initialOther type v

/-- The initial value of a truth value. -/
def initialTruth (scope : ScopeId) (v : Node) : Check Bool := do
  match v with
  | .literal .bool _ _ => return true
  | .empty _ => return true
  | .identifier name _ => initialVariable scope "bool" "boolean value" name v
  | .logic .. => logic scope v
  | .comparison .. => comparison scope v
  | .negation _ => negation scope v
  | _ => initialOther "bool" v

/-- Whether a node is empty. -/
def isEmpty : Node → Bool
  | .empty _ => true
  | _ => false

/-- Checks a declaration, and records the variable if it fits. -/
def declaration (scope : ScopeId) (n : Node) : Check Unit := do
  let type ← ofExcept n.typeName
  if type = "int" ∨ type = "float" ∨ type = "bool" then
    let v ← ofExcept n.value
    let fits ←
      if type = "int" then initialNumber scope type .int v
      else if type = "float" then initialNumber scope type .float v
      else initialTruth scope v
    if fits then
      let isMutable ← ofExcept n.isMutable
      let name ← ofExcept n.name
      define scope name (.symbol ⟨type, isMutable, isEmpty v⟩)

mutual

/-- Checks a program or block. -/
def program (n : Node) : Check Unit :=
  match n with
  | .block ss i => statements i ss
  | .program ss i => statements i ss
  | n => ofExcept (n.lacks "scope")

/-- Checks the statements of a block whose scope is given. -/
def statements (scope : ScopeId) (ss : List Node) : Check Unit :=
  match ss with
  | [] => return
  | .conditional bs _ :: rest => do
    branches scope bs
    statements scope rest
  | .declaration name type isMutable value :: rest => do
    declaration scope (.declaration name type isMutable value)
    statements scope rest
  | _ :: rest => statements scope rest

/-- Checks the conditions and blocks of a conditional statement. -/
def branches (scope : ScopeId) (bs : List (Node × Node)) : Check Unit :=
  match bs with
  | [] => return
  | (c, b) :: rest => do
    condition scope c
    program b
    branches scope rest

end

end Scriptlet.Check
