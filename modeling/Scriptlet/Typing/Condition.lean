import Scriptlet.Typing.Arithmetic

/-! # Checking conditions

A condition is a truth value: a literal, a variable, a negation, `and` and `or`, or a comparison.
The two sides of a comparison have to be of one type; only numbers and texts have an order, and
truth values can be compared for equality.
-/
namespace Scriptlet.Check

/-- The checks that may be made of a part of a truth value. Each waits until it is called for. -/
structure TruthParts where
  /-- The part as an operation with `and` or `or`. -/
  logic : Unit → Check Bool
  /-- The part as a comparison. -/
  comparison : Unit → Check Bool
  /-- The part as a negation. -/
  negation : Unit → Check Bool

/-- A variable as a truth value, with the problems that it can have. -/
def truthVariable (scope : ScopeId) (side : Node) (name : String)
    (unknown other : TypeProblem) : Check Bool := do
  let type ← variableType scope name
  if type = unknownType then
    report unknown side
    return false
  else if type = emptyType then
    report (.emptyVariable name) side
    return false
  else if type ≠ "bool" then
    report other side
    return false
  else return true

/-- One side of an operation with `and` or `or`. Anything that is no truth value is reported with
the label of the node `labelled`. -/
def logicOperand (scope : ScopeId) (operator : String) (side labelled : Node)
    (parts : TruthParts) : Check Bool := do
  match side with
  | .literal .bool _ _ => return true
  | .empty _ =>
    report (.emptyOperand .boolean operator) side
    return false
  | .logic .. => parts.logic ()
  | .comparison .. => parts.comparison ()
  | .negation _ => parts.negation ()
  | .identifier name _ =>
    truthVariable scope side name (.boolUnknown name) (.boolVariable operator "variable")
  | _ =>
    let label ← ofExcept labelled.label
    report (.boolOperand label) side
    return false

/-- Both sides of an operation with `and` or `or`. A problem on the right is reported with the label
of the left side. -/
def bothTruths (scope : ScopeId) (operator : String) (l r : Node) (left right : TruthParts) :
    Check Bool := do
  let leftFits ← logicOperand scope operator l l left
  let rightFits ← logicOperand scope operator r l right
  return leftFits && rightFits

/-- What `not` applies to in the node `n`. -/
def negationOperand (scope : ScopeId) (n o : Node) (parts : TruthParts) : Check Bool := do
  match o with
  | .literal .bool _ _ => return true
  | .empty _ =>
    let operator ← ofExcept n.operator
    report (.emptyOperand .negation operator) o
    return false
  | .logic .. => parts.logic ()
  | .comparison .. => parts.comparison ()
  | .negation _ => parts.negation ()
  | .identifier name _ =>
    truthVariable scope o name (.unknownVariable name) (.notVariable "variable")
  | _ =>
    let label ← ofExcept o.label
    report (.notOperand label) o
    return false

/-! ## Comparisons -/

/-- The types whose values can be compared in a family. -/
def comparable (family : Family) : List String :=
  match family with
  | .equality => ["string", "bool", "int", "float"]
  | _ => ["string", "int", "float"]

/-- The type of a literal that can be compared in a family. -/
def comparableLiteral? (family : Family) (kind : LiteralKind) : Option String :=
  kind.typeName?.filter (comparable family).contains

/-- A truth value among the sides of a comparison; only equality admits one. -/
def truthSide? (family : Family) (side : Node) (parts : TruthParts) : Option (Unit → Check Bool) :=
  match family, side with
  | .equality, .comparison .. => some parts.comparison
  | .equality, .negation _ => some parts.negation
  | .equality, .logic .. => some parts.logic
  | _, _ => none

/-- The type of a side that cannot be compared: there is none, and that is reported. -/
def invalidSide (family : Family) (operator : String) (side : Node) : Check (Option String) := do
  report (.invalidOperand family operator) side
  return none

/-- A variable on one side of a comparison: its type, if it can be compared. -/
def comparedVariable (scope : ScopeId) (family : Family) (operator : String) (side : Node)
    (name : String) : Check (Option String) := do
  let type ← variableType scope name
  if type = unknownType then
    report (.unknownVariable name) side
    return none
  else if type = emptyType then
    report (.emptyVariable name) side
    return none
  else if !(comparable family).contains type then invalidSide family operator side
  else return some type

/-- The left side of a comparison: its type, if it is settled, and whether it fits. -/
def comparedLeft (scope : ScopeId) (family : Family) (operator : String) (l : Node)
    (parts : TruthParts) : Check (Option String × Bool) := do
  match truthSide? family l parts with
  | some truth => return (some "bool", ← truth ())
  | none =>
    match l with
    | .literal kind _ _ =>
      match comparableLiteral? family kind with
      | some type => return (some type, true)
      | none => return (← invalidSide family operator l, false)
    | .empty _ =>
      report (.emptyOperand family operator) l
      return (none, false)
    | .arithmetic .. =>
      let (type, fits) ← arithmetic scope l unsettledType
      return (some type, fits)
    | .signed .. =>
      let (type, fits) ← signed scope l unsettledType
      return (some type, fits)
    | .identifier name _ =>
      let type ← comparedVariable scope family operator l name
      return (type, type.isSome)
    | _ => return (← invalidSide family operator l, false)

/-- The type of the left side, which it is a fault to use before it is settled. -/
def settledLeft (type : Option String) : Check String :=
  match type with
  | some t => return t
  | none => throw (.unassigned "left_type")

/-- A number on the right side of a comparison, checked by `inner`. Its type has to be that of the
left side, which has to be a number type. -/
def comparedNumber (leftType : String) (r : Node) (inner : String → Check (String × Bool))
    (problem : String → String → TypeProblem) : Check Bool := do
  if leftType = "int" ∨ leftType = "float" then
    let (rightType, fits) ← inner unsettledType
    if leftType ≠ rightType then
      report (problem leftType rightType) r
      return false
    else return fits
  else throw (.unassigned "right_type")

/-- A literal on the right side of a comparison. -/
def comparedLiteral (family : Family) (operator leftType type : String) (r : Node) :
    Check Bool := do
  if leftType ≠ type then
    report (.literalMismatch family operator leftType type) r
    return false
  else return true

/-- A truth value on the right side of an equality. If both sides are truth values, it is checked;
for `and` and `or` it is the left side that is checked once more, and the right side that does not
fit. -/
def equatedTruth (operator leftType : String) (r : Node) (leftFits : Bool)
    (leftLogic : Unit → Check Bool) (parts : TruthParts) : Check (Bool × Bool) := do
  match r with
  | .comparison .. =>
    if leftType ≠ "bool" then
      report (.comparisonMismatch operator leftType) r
      return (leftFits, false)
    else return (leftFits, ← parts.comparison ())
  | .negation _ =>
    if leftType ≠ "bool" then
      report .notMismatch r
      return (leftFits, false)
    else return (leftFits, ← parts.negation ())
  | _ =>
    if leftType = "bool" then return (← leftLogic (), false)
    else
      report (.booleanMismatch operator leftType) r
      return (leftFits, false)

/-- The right side of a comparison: whether the left side and the right side fit. A variable of the
right type makes the left side fit, not the right one. -/
def comparedRight (scope : ScopeId) (family : Family) (operator : String) (r : Node)
    (leftType : Option String) (leftFits : Bool) (leftLogic : Unit → Check Bool)
    (parts : TruthParts) : Check (Bool × Bool) := do
  match truthSide? family r parts with
  | some _ => equatedTruth operator (← settledLeft leftType) r leftFits leftLogic parts
  | none =>
    match r with
    | .literal kind _ _ =>
      match comparableLiteral? family kind with
      | some type =>
        return (leftFits, ← comparedLiteral family operator (← settledLeft leftType) type r)
      | none =>
        let _ ← invalidSide family operator r
        return (leftFits, false)
    | .empty _ =>
      report (.emptyOperand family operator) r
      return (leftFits, false)
    | .arithmetic .. =>
      return (leftFits, ← comparedNumber (← settledLeft leftType) r (arithmetic scope r)
        (.arithmeticMismatch family operator))
    | .signed .. =>
      return (leftFits, ← comparedNumber (← settledLeft leftType) r (signed scope r)
        (.signMismatch family operator))
    | .identifier name _ =>
      match ← comparedVariable scope family operator r name with
      | some type =>
        if (← settledLeft leftType) ≠ type then throw (.unassigned "right_type")
        return (true, false)
      | none => return (leftFits, false)
    | _ =>
      let _ ← invalidSide family operator r
      return (leftFits, false)

/-- The family of the comparison that `operator` writes. -/
def familyOf (operator : String) : Family :=
  if operator = "==" ∨ operator = "!=" then .equality else .comparison

/-- Both sides of a comparison, the left one first. -/
def bothCompared (scope : ScopeId) (operator : String) (l r : Node) (left right : TruthParts) :
    Check Bool := do
  let family := familyOf operator
  let (leftType, leftFits) ← comparedLeft scope family operator l left
  let (leftFits, rightFits) ←
    comparedRight scope family operator r leftType leftFits left.logic right
  return leftFits && rightFits

mutual

/-- Checks an operation with `and` or `or`. -/
def logic (scope : ScopeId) (n : Node) : Check Bool :=
  match n with
  | .logic op l r =>
    bothTruths scope op.symbol l r
      ⟨fun _ => logic scope l, fun _ => comparison scope l, fun _ => negation scope l⟩
      ⟨fun _ => logic scope r, fun _ => comparison scope r, fun _ => negation scope r⟩
  | .comparison op l r =>
    bothTruths scope op.symbol l r
      ⟨fun _ => logic scope l, fun _ => comparison scope l, fun _ => negation scope l⟩
      ⟨fun _ => logic scope r, fun _ => comparison scope r, fun _ => negation scope r⟩
  | .arithmetic op l r =>
    bothTruths scope op.symbol l r
      ⟨fun _ => logic scope l, fun _ => comparison scope l, fun _ => negation scope l⟩
      ⟨fun _ => logic scope r, fun _ => comparison scope r, fun _ => negation scope r⟩
  | n => ofExcept (n.lacks "left")

/-- Checks a comparison. -/
def comparison (scope : ScopeId) (n : Node) : Check Bool :=
  match n with
  | .comparison op l r =>
    bothCompared scope op.symbol l r
      ⟨fun _ => logic scope l, fun _ => comparison scope l, fun _ => negation scope l⟩
      ⟨fun _ => logic scope r, fun _ => comparison scope r, fun _ => negation scope r⟩
  | .logic op l r =>
    bothCompared scope op.symbol l r
      ⟨fun _ => logic scope l, fun _ => comparison scope l, fun _ => negation scope l⟩
      ⟨fun _ => logic scope r, fun _ => comparison scope r, fun _ => negation scope r⟩
  | .arithmetic op l r =>
    bothCompared scope op.symbol l r
      ⟨fun _ => logic scope l, fun _ => comparison scope l, fun _ => negation scope l⟩
      ⟨fun _ => logic scope r, fun _ => comparison scope r, fun _ => negation scope r⟩
  | .signed op o => ofExcept ((Node.signed op o).lacks "left")
  | n => ofExcept (n.lacks "operator")

/-- Checks a negation. -/
def negation (scope : ScopeId) (n : Node) : Check Bool :=
  match n with
  | .negation o =>
    negationOperand scope (.negation o) o
      ⟨fun _ => logic scope o, fun _ => comparison scope o, fun _ => negation scope o⟩
  | .signed op o =>
    negationOperand scope (.signed op o) o
      ⟨fun _ => logic scope o, fun _ => comparison scope o, fun _ => negation scope o⟩
  | n => ofExcept (n.lacks "node")

end

/-- Checks a condition. -/
def condition (scope : ScopeId) (n : Node) : Check Unit := do
  match n with
  | .literal .bool _ _ => return
  | .negation _ => let _ ← negation scope n
  | .logic .. => let _ ← logic scope n
  | .comparison .. => let _ ← comparison scope n
  | .identifier name _ =>
    let type ← variableType scope name
    if type = unknownType then report (.conditionUnknown name) n
    else if type = emptyType then report (.conditionEmpty name) n
    else if type = "bool" then return
    else report (.conditionKind name type) n
  | _ => report .conditionInvalid n

end Scriptlet.Check
