import Scriptlet.Execution.Builtin
import Scriptlet.Node

/-! # The values of expressions

Operands are evaluated from left to right. `and` and `or` look at their right side only if the left
one does not decide: it decides if it is equal to false, or to true, and zero and one are. A
division or remainder by zero, and the negation of what is no truth value, are reported and stop
the run.
-/
namespace Scriptlet.Run

/-- The value of a variable, seen from a scope. -/
def variableValue (scope : ScopeId) (name : String) : Run Value := do
  return ((← get).scopes.get? scope name).getD .absent

/-- An arithmetic operation whose left side stands at `p`. -/
def arithmetic (op : Arithmetic) (p : Pos) (a b : Value) : Run Value :=
  match op with
  | .div => if b.equals (.int 0) then stop (.zeroDivision p) else ofExcept (op.apply a b)
  | .mod => if b.equals (.int 0) then stop (.zeroModulo p) else ofExcept (op.apply a b)
  | _ => ofExcept (op.apply a b)

/-- A negation. -/
def negation : Value → Run Value
  | .bool b => return .bool (!b)
  | _ => stop .notOfOther

/-- The value that the left side of `and` or `or` decides, if it does. -/
def decided? (op : Logic) (left : Value) : Option Value :=
  match op with
  | .and => if left.equals (.bool false) then some (.bool false) else none
  | .or => if left.equals (.bool true) then some (.bool true) else none
  | .other _ => none

/-- The value of `and` or `or` when both sides have been evaluated. -/
def joined (op : Logic) (left right : Value) : Value :=
  match op with
  | .and => if left.truth then right else left
  | .or => if left.truth then left else right
  | .other _ => .absent

mutual

/-- The value of an expression, seen from a scope. What is no expression has no value. -/
def eval (scope : ScopeId) (n : Node) : Run Value :=
  match n with
  | .call callee arguments => do
    let values ← evalAll scope arguments
    builtin callee values
  | .identifier name _ => variableValue scope name
  | .arithmetic op l r => do
    let p ← ofExcept l.pos
    let a ← eval scope l
    let b ← eval scope r
    arithmetic op p a b
  | .signed op o => do
    let v ← eval scope o
    ofExcept (op.apply v)
  | .negation o => do
    let v ← eval scope o
    negation v
  | .comparison op l r => do
    let a ← eval scope l
    let b ← eval scope r
    ofExcept (op.apply a b)
  | .logic op l r => do
    let a ← eval scope l
    match decided? op a with
    | some v => return v
    | none =>
      let b ← eval scope r
      return joined op a b
  | .literal .plain _ _ => return .absent
  | .literal _ v _ => return v
  | _ => return .absent

/-- The values of a list of expressions, from left to right. -/
def evalAll (scope : ScopeId) (ns : List Node) : Run (List Value) :=
  match ns with
  | [] => return []
  | n :: rest => do
    let v ← eval scope n
    let vs ← evalAll scope rest
    return v :: vs

end

end Scriptlet.Run
