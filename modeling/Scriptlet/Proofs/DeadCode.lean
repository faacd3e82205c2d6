import Scriptlet.Proofs.RunSteps

/-! # Statements behind a jump

`break` and `continue` end the block that they stand in, whether a loop encloses it or not. So what
stands behind them in the same block is never run, and can be left out (`Node.trimmed`): it makes no
difference how the block was come to, nor what is made of the way it ends, by conditional statements
and loops around it.

The statements of the program itself are no block. A jump among them is passed over, and what stands
behind it is run.
-/
namespace Scriptlet

namespace Node

/-- Whether the statement is `break` or `continue`. -/
def isJump : Node → Bool
  | .breakLoop | .continueLoop => true
  | _ => false

/-- The statements up to the first `break` or `continue` among them. -/
def upToJump : List Node → List Node
  | [] => []
  | s :: rest => if s.isJump then [s] else s :: upToJump rest

mutual

/-- The tree in which nothing stands behind a `break` or `continue` in the blocks that are chosen.
Every block of a program has a scope of its own, so any of its blocks can be chosen. -/
def trimmed (chosen : Node → Bool) : Node → Node
  | .block ss i =>
    .block (if chosen (.block ss i) then upToJump (trimmedAll chosen ss)
      else trimmedAll chosen ss) i
  | .program ss i => .program (trimmedAll chosen ss) i
  | .conditional bs o => .conditional (trimmedBranches chosen bs) (o.trimmed chosen)
  | .otherwise b => .otherwise (b.trimmed chosen)
  | .loop c b => .loop c (b.trimmed chosen)
  | n => n

/-- The statements, trimmed one by one. -/
def trimmedAll (chosen : Node → Bool) : List Node → List Node
  | [] => []
  | s :: rest => s.trimmed chosen :: trimmedAll chosen rest

/-- The branches with trimmed blocks. -/
def trimmedBranches (chosen : Node → Bool) : List (Node × Node) → List (Node × Node)
  | [] => []
  | (c, b) :: rest => (c, b.trimmed chosen) :: trimmedBranches chosen rest

end

end Node

namespace Run

open Node (upToJump trimmedAll trimmedBranches)

variable {budget : Nat} {chosen : Node → Bool}

/-- A jump ends the block that it stands in, and does nothing else. -/
theorem exists_signal_of_isJump (budget : Nat) (i : ScopeId) {s : Node} (h : s.isJump = true) :
    ∃ signal, signal ≠ .pass ∧ one budget i s = pure signal := by
  cases s with
  | breakLoop => exact ⟨.leave, by decide, rfl⟩
  | continueLoop => exact ⟨.again, by decide, rfl⟩
  | _ => cases h

/-- What stands behind a jump in a block is not run. -/
theorem statements_upToJump (i : ScopeId) (ss : List Node) :
    statements budget i (upToJump ss) = statements budget i ss := by
  induction ss with
  | nil => rfl
  | cons s rest ih =>
    rw [upToJump]
    split
    · rename_i hs
      obtain ⟨signal, hsignal, hone⟩ := exists_signal_of_isJump budget i hs
      rw [statements_cons, statements_cons, hone, pure_bind, pure_bind]
      cases signal with
      | pass => exact absurd rfl hsignal
      | leave | again => rfl
    · rw [statements_cons, statements_cons, ih]

/-- A trimmed block has the scope that it had, and so a condition has the value that it had. -/
theorem holds_trimmed (c b : Node) : holds c (b.trimmed chosen) = holds c b := by
  cases b <;> rfl

mutual

theorem one_trimmed {i : ScopeId} : ∀ s : Node, one budget i (s.trimmed chosen) = one budget i s
  | .conditional bs o => by
    rw [Node.trimmed, one, one, conditional, conditional, branches_trimmed bs, lastPart_trimmed o]
  | .loop c b => by
    rw [Node.trimmed, one, one, loop, loop, holds_trimmed, block_trimmed b]
  | .empty _ | .literal .. | .identifier .. | .signed .. | .negation _ | .logic .. | .comparison ..
  | .arithmetic .. | .assignment .. | .declaration .. | .call .. | .otherwise _ | .block ..
  | .program .. | .breakLoop | .continueLoop | .bare | .raw _ => rfl

/-- A trimmed block does what it did, and ends in the same way. -/
theorem block_trimmed : ∀ b : Node, block budget (b.trimmed chosen) = block budget b
  | .block ss i => by
    rw [Node.trimmed, block, block]
    split
    · rw [statements_upToJump, statements_trimmed ss]
    · exact statements_trimmed ss
  | .program ss i => by
    rw [Node.trimmed, block, block]
    exact statements_trimmed ss
  | .empty _ | .literal .. | .identifier .. | .signed .. | .negation _ | .logic .. | .comparison ..
  | .arithmetic .. | .assignment .. | .declaration .. | .call .. | .otherwise _ | .conditional ..
  | .loop .. | .breakLoop | .continueLoop | .bare | .raw _ => rfl

theorem statements_trimmed {i : ScopeId} : ∀ ss : List Node,
    statements budget i (trimmedAll chosen ss) = statements budget i ss
  | [] => rfl
  | s :: rest => by
    rw [trimmedAll, statements_cons, statements_cons, one_trimmed s, statements_trimmed rest]

theorem branches_trimmed : ∀ bs : List (Node × Node),
    branches budget (trimmedBranches chosen bs) = branches budget bs
  | [] => rfl
  | (c, b) :: rest => by
    rw [trimmedBranches, branches, branches, holds_trimmed, block_trimmed b, branches_trimmed rest]

theorem lastPart_trimmed : ∀ o : Node, lastPart budget (o.trimmed chosen) = lastPart budget o
  | .otherwise b => by
    rw [Node.trimmed, lastPart, lastPart, block_trimmed b]
  | .empty _ | .literal .. | .identifier .. | .signed .. | .negation _ | .logic .. | .comparison ..
  | .arithmetic .. | .assignment .. | .declaration .. | .call .. | .block .. | .program ..
  | .conditional .. | .loop .. | .breakLoop | .continueLoop | .bare | .raw _ => rfl

end

theorem topStatements_trimmed (i : ScopeId) (ss : List Node) :
    topStatements budget i (trimmedAll chosen ss) = topStatements budget i ss := by
  induction ss with
  | nil => rfl
  | cons s rest ih => rw [trimmedAll, topStatements_cons, topStatements_cons, one_trimmed, ih]

/-- **What stands behind a jump in a block is dead.** Let all statements behind the first `break` or
`continue` be left out in any blocks of a program, at any depth, inside or outside of loops. In
every state the program then does what it did before: it gives the same result or fault, or exhausts
the same budgets if it does not end, and it leaves the same machine, which is to say the same
output, unread input, reports and values in all scopes. -/
theorem program_trimmed (chosen : Node → Bool) (budget : Nat) (ss : List Node) (i : ScopeId)
    (m : Machine) :
    program budget ((Node.program ss i).trimmed chosen) m = program budget (.program ss i) m := by
  show topStatements budget i (trimmedAll chosen ss) m = topStatements budget i ss m
  rw [topStatements_trimmed]

/-- In a loop, and in a conditional statement that stands in it, what is dead is left out. -/
example (c d : Node) (p : Pos) :
    (Node.loop c (.block [.conditional [(d, .block [.continueLoop, .call "write" []] 2)] (.empty p),
      .call "writeline" [], .breakLoop, .assignment "x" d] 1)).trimmed (fun _ => true) =
    .loop c (.block [.conditional [(d, .block [.continueLoop] 2)] (.empty p),
      .call "writeline" [], .breakLoop] 1) := rfl

end Run

end Scriptlet
