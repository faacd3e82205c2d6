import Scriptlet.Execution.Expression

/-! # Running statements

Statements are run one after the other. `break` and `continue` end the block they stand in, and the
conditional statements around it, up to the next loop. The condition of a loop or branch is
evaluated in the scope of its block.

Loops take a budget: the greatest number of rounds of any one loop. A program that ends does so
within some budget, and the outcome does not depend on which.

A declaration evaluates its value, and then fails: no symbols are known while a program runs.
-/
namespace Scriptlet.Run

/-- How a block ends. -/
inductive Signal where
  /-- After its last statement. -/
  | pass
  /-- By `break`. -/
  | leave
  /-- By `continue`. -/
  | again
deriving DecidableEq, Repr

/-- Runs a declaration. -/
def declare (scope : ScopeId) (value : Node) : Run Unit := do
  let _ ← eval scope value
  throw (.undefinedName "Symbol")

/-- Runs an assignment. -/
def assign (scope : ScopeId) (name : String) (value : Node) : Run Unit := do
  let v ← eval scope value
  modify fun m => { m with scopes := m.scopes.assign scope name v }

/-- Whether the condition of a block is true, in the scope of the block. -/
def holds (condition block : Node) : Run Bool := do
  let scope ← ofExcept block.scope
  let v ← eval scope condition
  return v.truth

/-- Runs `body` as long as `test` is true and `body` does not break off, for at most so many
rounds. -/
def rounds (test : Run Bool) (body : Run Signal) : Nat → Run Unit
  | 0 => throw .exhausted
  | n + 1 => do
    if ← test then
      match ← body with
      | .leave => return
      | .pass | .again => rounds test body n
    else return

/-- What the first of two attempts ran, or else what the second did. -/
def orElse (first second : Run (Option Signal)) : Run (Option Signal) := do
  match ← first with
  | some signal => return some signal
  | none => second

mutual

/-- Runs a block. -/
def block (budget : Nat) (n : Node) : Run Signal :=
  match n with
  | .block ss i => statements budget i ss
  | .program ss i => statements budget i ss
  | n => ofExcept (n.lacks "statements")

/-- Runs the statements of a block whose scope is given. -/
def statements (budget : Nat) (scope : ScopeId) (ss : List Node) : Run Signal :=
  match ss with
  | [] => return .pass
  | .declaration _ _ _ value :: rest => do
    declare scope value
    statements budget scope rest
  | .assignment name value :: rest => do
    assign scope name value
    statements budget scope rest
  | .call callee arguments :: rest => do
    let _ ← eval scope (.call callee arguments)
    statements budget scope rest
  | .conditional bs o :: rest => do
    match ← orElse (branches budget bs) (lastPart budget o) with
    | some .leave => return .leave
    | some .again => return .again
    | some .pass | none => statements budget scope rest
  | .breakLoop :: _ => return .leave
  | .continueLoop :: _ => return .again
  | .loop c b :: rest => do
    rounds (holds c b) (block budget b) budget
    statements budget scope rest
  | _ :: rest => statements budget scope rest

/-- Runs the first block whose condition is true; how it ended, if there is one. -/
def branches (budget : Nat) (bs : List (Node × Node)) : Run (Option Signal) :=
  match bs with
  | [] => return none
  | (c, b) :: rest => do
    if ← holds c b then
      let signal ← block budget b
      return some signal
    else branches budget rest

/-- Runs the part behind `else`, if there is one. -/
def lastPart (budget : Nat) (o : Node) : Run (Option Signal) :=
  match o with
  | .otherwise b => do
    let signal ← block budget b
    return some signal
  | _ => return none

end

/-- Runs the first block whose condition is true, or else the part behind `else`; how it ended, if
a block was run. -/
def conditional (budget : Nat) (bs : List (Node × Node)) (o : Node) : Run (Option Signal) :=
  orElse (branches budget bs) (lastPart budget o)

/-- Runs a loop. -/
def loop (budget : Nat) (c b : Node) : Run Unit :=
  rounds (holds c b) (block budget b) budget

/-- Runs the statements of a program. A `break` or `continue` that no loop encloses does nothing. -/
def topStatements (budget : Nat) (scope : ScopeId) : List Node → Run Unit
  | [] => return
  | s :: rest => do
    match s with
    | .declaration _ _ _ value => declare scope value
    | .assignment name value => assign scope name value
    | .call callee arguments => let _ ← eval scope (.call callee arguments)
    | .conditional bs o => let _ ← conditional budget bs o
    | .loop c b => loop budget c b
    | _ => pure ()
    topStatements budget scope rest

/-- Runs a program. -/
def program (budget : Nat) (n : Node) : Run Unit := do
  let ss ← ofExcept n.statements
  let scope ← ofExcept n.scope
  topStatements budget scope ss

/-- A budget that no run exhausts in practice. -/
def ampleBudget : Nat := 4611686018427387904

end Scriptlet.Run
