import Scriptlet.Typing.Basic

/-! # Checking arithmetic

An arithmetic expression has to be made of numbers of one type. The check is given the type that is
expected, or that none is settled; then the first number settles it. It answers with the type and
whether the expression fits.
-/
namespace Scriptlet.Check

/-- A number of type `actual` where `expected` is expected: the type that is settled then, and
whether the number fits. -/
def settle (expected actual : String) : String × Bool :=
  if expected = actual then (expected, true)
  else if expected = unsettledType then (actual, true)
  else (expected, false)

/-- A part that is checked by `inner`: if no type is settled the part settles it, else it has to fit
the expected one. -/
def nested (inner : String → Check (String × Bool)) (expected : String) :
    Check (String × Bool) := do
  if expected = unsettledType then inner unsettledType
  else
    let (_, fits) ← inner expected
    return (expected, fits)

/-- A variable on the given side of the operation `n`, where it was not found unknown. -/
def variableOperand (n side : Node) (name type expected : String) : Check (String × Bool) := do
  if type = emptyType then
    report (.emptyVariable name) side
    return (expected, false)
  else if type ≠ expected then ofExcept (n.lacks "value")
  else if expected = unsettledType then
    report .operandUnsettled side
    return (expected, false)
  else return (expected, true)

/-- A number literal on one side of the operation that `operator` writes. -/
def numberOperand (side : Node) (operator actual expected : String)
    (problem : String → String → TypeProblem) : Check (String × Bool) := do
  let (settled, fits) := settle expected actual
  if !fits then report (problem expected operator) side
  return (settled, fits)

/-- The left side `l` of the operation `n`. -/
def leftOperand (scope : ScopeId) (n : Node) (operator : String) (l : Node)
    (signed arithmetic : String → Check (String × Bool)) (expected : String) :
    Check (String × Bool) := do
  match l with
  | .literal .int _ _ => numberOperand l operator "int" expected .integerOperand
  | .literal .float _ _ => numberOperand l operator "float" expected .floatOperand
  | .signed .. => nested signed expected
  | .empty _ =>
    report (.emptyOperand .arithmetic operator) l
    return (expected, false)
  | .identifier name _ =>
    let type ← variableType scope name
    if type = unknownType then
      report (.unknownOfType name expected) l
      return (expected, false)
    else variableOperand n l name type expected
  | .arithmetic .. => nested arithmetic expected
  | _ =>
    let label ← ofExcept l.label
    report (.leftOperand expected operator label) l
    return (expected, false)

/-- The right side `r` of the operation `n`. When a type is settled and the right side is itself an
operation, it is the left side, checked by `arithmeticLeft`, that is looked at once more. -/
def rightOperand (scope : ScopeId) (n : Node) (operator : String) (r : Node)
    (signed arithmetic arithmeticLeft : String → Check (String × Bool)) (expected : String) :
    Check (String × Bool) := do
  match r with
  | .literal .int _ _ => numberOperand r operator "int" expected .integerOperand
  | .literal .float _ _ => numberOperand r operator "float" expected .floatOperand
  | .empty _ =>
    report (.emptyOperand .arithmetic operator) r
    return (expected, false)
  | .signed .. => nested signed expected
  | .identifier name _ =>
    let type ← variableType scope name
    if type = unknownType then report (.unknownOfType name expected) r
    variableOperand n r name type expected
  | .arithmetic .. =>
    if expected = unsettledType then arithmetic unsettledType
    else
      let (_, fits) ← arithmeticLeft expected
      return (expected, fits)
  | _ =>
    let label ← ofExcept r.label
    report (.rightOperand expected label) r
    return (expected, false)

/-- Both sides of the operation `n`, the left one first. -/
def bothOperands (scope : ScopeId) (n : Node) (operator : String) (l r : Node)
    (signedLeft arithmeticLeft signedRight arithmeticRight : String → Check (String × Bool))
    (expected : String) : Check (String × Bool) := do
  let (expected, leftFits) ← leftOperand scope n operator l signedLeft arithmeticLeft expected
  let (expected, rightFits) ←
    rightOperand scope n operator r signedRight arithmeticRight arithmeticLeft expected
  return (expected, leftFits && rightFits)

/-- A number literal behind a sign. It is reported even if it fits. -/
def signedNumber (o : Node) (actual expected : String) (problem : String → TypeProblem) :
    Check (String × Bool) := do
  let (settled, fits) := settle expected actual
  report (problem settled) o
  return (settled, fits)

/-- Anything behind a sign that is neither a number nor made of numbers. -/
def signedOther (n o : Node) (expected : String) : Check Unit := do
  let label ← ofExcept o.label
  report (.signedOther expected label) n

/-- What stands behind the sign of `n`. -/
def signedOperand (scope : ScopeId) (n o : Node)
    (signed arithmetic : String → Check (String × Bool)) (expected : String) :
    Check (String × Bool) := do
  match o with
  | .literal .int _ _ =>
    let (settled, fits) ← signedNumber o "int" expected .signedInteger
    signedOther n o settled
    return (settled, fits)
  | .literal .float _ _ => signedNumber o "float" expected .signedFloat
  | .empty _ =>
    let operator ← ofExcept n.operator
    report (.emptyOperand .unary operator) o
    return (expected, false)
  | .signed .. => nested signed expected
  | .arithmetic .. => nested arithmetic expected
  | .identifier name _ =>
    let type ← variableType scope name
    if type = unknownType then ofExcept (n.lacks "name")
    else if type = emptyType then
      report (.emptyVariable name) o
      return (expected, false)
    else if type ≠ expected then ofExcept (n.lacks "value")
    else if expected = unsettledType then
      report .signedUnsettled o
      return (expected, false)
    else return (expected, true)
  | _ =>
    signedOther n o expected
    return (expected, false)

mutual

/-- Checks an expression behind a sign against an expected type. -/
def signed (scope : ScopeId) (n : Node) (expected : String) : Check (String × Bool) :=
  match n with
  | .signed op o =>
    signedOperand scope (.signed op o) o (signed scope o) (arithmetic scope o) expected
  | .negation o =>
    signedOperand scope (.negation o) o (signed scope o) (arithmetic scope o) expected
  | n => ofExcept (n.lacks "node")

/-- Checks an operation on two numbers against an expected type. -/
def arithmetic (scope : ScopeId) (n : Node) (expected : String) : Check (String × Bool) :=
  match n with
  | .arithmetic op l r =>
    bothOperands scope (.arithmetic op l r) op.symbol l r (signed scope l) (arithmetic scope l)
      (signed scope r) (arithmetic scope r) expected
  | .comparison op l r =>
    bothOperands scope (.comparison op l r) op.symbol l r (signed scope l) (arithmetic scope l)
      (signed scope r) (arithmetic scope r) expected
  | .logic op l r =>
    bothOperands scope (.logic op l r) op.symbol l r (signed scope l) (arithmetic scope l)
      (signed scope r) (arithmetic scope r) expected
  | n => ofExcept (n.lacks "left")

end

end Scriptlet.Check
