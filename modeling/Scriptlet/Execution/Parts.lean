import Scriptlet.Execution.Statement

/-! # Evaluation by the parts of a node

The rules of evaluation for any node that has the parts they need: the sign rule, for one, needs an
operator and an operand, whatever the kind of the node is. On nodes of the kind that a rule is made
for, it gives what `eval` gives.
-/
namespace Scriptlet.Run

/-- The value that a node has or sets. -/
def ownValue (n : Node) : Run Node :=
  ofExcept n.value

/-- The sign rule. -/
def signedBy (scope : ScopeId) (n : Node) : Run Value := do
  let op ← ofExcept n.operator
  let v ← eval scope (← ofExcept n.operand)
  ofExcept ((Sign.ofSymbol op).apply v)

/-- The rule of negation. -/
def negationBy (scope : ScopeId) (n : Node) : Run Value := do
  let v ← eval scope (← ofExcept n.operand)
  negation v

/-- The rule of comparisons. -/
def comparisonBy (scope : ScopeId) (n : Node) : Run Value := do
  let a ← eval scope (← ofExcept n.left)
  let op ← ofExcept n.operator
  let b ← eval scope (← ofExcept n.right)
  ofExcept ((Comparison.ofSymbol op).apply a b)

/-- The rule of `and` and `or`. -/
def logicBy (scope : ScopeId) (n : Node) : Run Value := do
  let a ← eval scope (← ofExcept n.left)
  let op := Logic.ofSymbol (← ofExcept n.operator)
  match decided? op a with
  | some v => return v
  | none =>
    let b ← eval scope (← ofExcept n.right)
    return joined op a b

/-- The rule of arithmetic. -/
def arithmeticBy (scope : ScopeId) (n : Node) : Run Value := do
  let l ← ofExcept n.left
  let p ← ofExcept l.pos
  let a ← eval scope l
  let op ← ofExcept n.operator
  let b ← eval scope (← ofExcept n.right)
  arithmetic (Arithmetic.ofSymbol op) p a b

/-- The rule of variables. -/
def variableBy (scope : ScopeId) (n : Node) : Run Value := do
  variableValue scope (← ofExcept n.name)

/-- The rule of calls. -/
def callBy (scope : ScopeId) (n : Node) : Run Value :=
  match n with
  | .call .. => eval scope n
  | _ => ofExcept (n.lacks "args")

/-- The rule of declarations. -/
def declareBy (scope : ScopeId) (n : Node) : Run Unit := do
  declare scope (← ofExcept n.value)

/-- The rule of assignments. -/
def assignBy (scope : ScopeId) (n : Node) : Run Unit := do
  let v ← eval scope (← ofExcept n.value)
  let name ← ofExcept n.name
  modify fun m => { m with scopes := m.scopes.assign scope name v }

/-- The rule of conditional statements. -/
def conditionalBy (budget : Nat) (n : Node) : Run (Option Signal) :=
  match n with
  | .conditional bs o => conditional budget bs o
  | _ => ofExcept (n.lacks "branches")

/-- The rule of loops. -/
def loopBy (budget : Nat) (n : Node) : Run Unit :=
  match n with
  | .loop c b => loop budget c b
  | .otherwise _ => ofExcept (n.lacks "condition")
  | _ => ofExcept (n.lacks "block")

end Scriptlet.Run
