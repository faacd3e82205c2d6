import Scriptlet.Grammar
import Scriptlet.Proofs.Sequences

/-! # What the budget of a reader means

The readers of the grammar take a budget that bounds the depth of their calls. It has no part in
what they read: a reader with a larger budget does the same, unless the smaller one ran out
(`Parse.programBody_extends`). So a reader that comes to an end within some budget comes to the same
end within every larger one.
-/
namespace Scriptlet.Parse

variable {α β : Type}

/-- The second reader does what the first one does, unless the budget of the first ran out. -/
def Extends (x y : Parse α) : Prop :=
  ∀ s, (∃ s', x s = .error .exhausted s') ∨ y s = x s

namespace Extends

variable {x y z : Parse α} {f g : α → Parse β}

theorem refl (x : Parse α) : Extends x x := fun _ => .inr rfl

theorem trans (h : Extends x y) (h' : Extends y z) : Extends x z := by
  intro s
  rcases h s with hx | hy
  · exact .inl hx
  · rcases h' s with ⟨s', hs'⟩ | hz
    · exact .inl ⟨s', hy ▸ hs'⟩
    · exact .inr (hz.trans hy)

/-- A reader without any budget is extended by all others. -/
theorem of_throw (y : Parse α) : Extends (throw .exhausted) y := fun s => .inl ⟨s, rfl⟩

theorem bind (hx : Extends x y) (hf : ∀ a, Extends (f a) (g a)) :
    Extends (x >>= f) (y >>= g) := by
  intro s
  rcases hx s with ⟨s', hs'⟩ | hy
  · exact .inl ⟨s', EStateM.bind_of_error hs'⟩
  · cases h : x s with
    | ok a t =>
      rw [EStateM.bind_of_ok h, EStateM.bind_of_ok (hy.trans h)]
      exact hf a t
    | error e t =>
      exact .inr ((EStateM.bind_of_error (hy.trans h)).trans (EStateM.bind_of_error h).symm)

/-- The same step before two readers. -/
theorem after (x : Parse α) (hf : ∀ a, Extends (f a) (g a)) : Extends (x >>= f) (x >>= g) :=
  (refl x).bind hf

theorem ite {c : Prop} [Decidable c] {x' y' : Parse α} (h : Extends x y) (h' : Extends x' y') :
    Extends (if c then x else x') (if c then y else y') := by
  split
  · exact h
  · exact h'

end Extends

open Extends

/-! ## Expressions -/

/-- One more step of the budget, for all readers of expressions. -/
structure ExpressionsExtend (n : Nat) : Prop where
  expression : ∀ l, Extends (expression n l) (expression (n + 1) l)
  chain : ∀ l left, Extends (chain n l left) (chain (n + 1) l left)
  primitive : Extends (primitive n) (primitive (n + 1))
  call : Extends (call n) (call (n + 1))
  arguments : Extends (arguments n) (arguments (n + 1))

namespace ExpressionsExtend

variable {n : Nat}

theorem expression_succ (ih : ExpressionsExtend n) (l : Level) :
    Extends (Parse.expression (n + 1) l) (Parse.expression (n + 2) l) := by
  cases l with
  | negation =>
    exact after _ fun _ => .ite ((ih.expression _).bind fun _ => refl _) (ih.expression _)
  | sign =>
    refine after _ fun _ => .ite (after _ fun _ => ?_) (ih.expression _)
    exact (ih.expression _).bind fun _ => refl _
  | primitive => exact ih.primitive
  | disjunction | conjunction | equality | comparison | sum | product | power =>
    exact (ih.expression _).bind fun left => ih.chain _ left

theorem chain_succ (ih : ExpressionsExtend n) (l : Level) (left : Node) :
    Extends (Parse.chain (n + 1) l left) (Parse.chain (n + 2) l left) := by
  refine after _ fun _ => .ite (after _ fun _ => ?_) (refl _)
  exact (ih.expression _).bind fun _ => after _ fun node => ih.chain l node

theorem primitive_succ (ih : ExpressionsExtend n) :
    Extends (Parse.primitive (n + 1)) (Parse.primitive (n + 2)) := by
  refine after _ fun before => ?_
  refine after _ fun _ => .ite (refl _) (after _ fun _ => .ite (refl _) ?_)
  refine after _ fun _ => .ite (refl _) (after _ fun _ => .ite (refl _) ?_)
  refine after _ fun _ => .ite (refl _) ?_
  refine after _ fun _ => .ite ((ih.expression _).bind fun _ => refl _) ?_
  exact after _ fun _ => .ite (after _ fun _ => .ite ih.call (refl _)) (refl _)

theorem call_succ (ih : ExpressionsExtend n) :
    Extends (Parse.call (n + 1)) (Parse.call (n + 2)) :=
  after _ fun _ => ih.arguments.bind fun _ => refl _

theorem arguments_succ (ih : ExpressionsExtend n) :
    Extends (Parse.arguments (n + 1)) (Parse.arguments (n + 2)) := by
  refine (ih.expression _).bind fun arg => after _ fun _ => .ite ?_ (refl _)
  exact ih.arguments.bind fun _ => refl _

theorem all : ∀ n, ExpressionsExtend n
  | 0 => ⟨fun _ => of_throw _, fun _ _ => of_throw _, of_throw _, of_throw _, of_throw _⟩
  | n + 1 =>
    have ih := all n
    ⟨ih.expression_succ, ih.chain_succ, ih.primitive_succ, ih.call_succ, ih.arguments_succ⟩

end ExpressionsExtend

theorem expression_extends (n : Nat) (l : Level) :
    Extends (expression n l) (expression (n + 1) l) :=
  (ExpressionsExtend.all n).expression l

/-! ## Statements -/

theorem compoundValue_extends (n : Nat) (name : String) : ∀ ops : List (TokenKind × Arithmetic),
    Extends (compoundValue n name ops) (compoundValue (n + 1) name ops)
  | [] => refl _
  | (_, _) :: ops => by
    refine after _ fun _ => .ite (after _ fun _ => ?_) (compoundValue_extends n name ops)
    exact (expression_extends n _).bind fun _ => refl _

theorem assignment_extends (n : Nat) : Extends (assignment n) (assignment (n + 1)) := by
  refine after _ fun name => after _ fun before => after _ fun _ => .ite ?_ ?_
  · exact (expression_extends n _).bind fun _ => refl _
  · exact (compoundValue_extends n name _).bind fun _ => refl _

theorem declarator_extends (n : Nat) (type : String) (isMutable : Bool) :
    Extends (declarator n type isMutable) (declarator (n + 1) type isMutable) := by
  refine after _ fun before => after _ fun _ => .ite (refl _) (after _ fun name => ?_)
  exact after _ fun _ => .ite ((expression_extends n _).bind fun _ => refl _) (refl _)

theorem declarators_extends (type : String) (isMutable : Bool) :
    ∀ n, Extends (declarators n type isMutable) (declarators (n + 1) type isMutable)
  | 0 => of_throw _
  | n + 1 => by
    refine (declarator_extends n type isMutable).bind fun first => after _ fun _ => .ite ?_ (refl _)
    exact (declarators_extends type isMutable n).bind fun _ => refl _

theorem declaration_extends (n : Nat) (before : Pos) :
    Extends (declaration n before) (declaration (n + 1) before) := by
  refine after _ fun _ => .ite (after _ fun introduced => after _ fun type => ?_) (refl _)
  exact declarators_extends type _ n

/-- One more step of the budget, for all readers of statements. -/
structure StatementsExtend (n : Nat) : Prop where
  statement : ∀ scope, Extends (statement n scope) (statement (n + 1) scope)
  conditional : ∀ scope, Extends (conditional n scope) (conditional (n + 1) scope)
  branches : ∀ scope, Extends (branches n scope) (branches (n + 1) scope)
  block : ∀ scope, Extends (block n scope) (block (n + 1) scope)
  blockBody : ∀ scope, Extends (blockBody n scope) (blockBody (n + 1) scope)

namespace StatementsExtend

variable {n : Nat}

theorem statement_succ (ih : StatementsExtend n) (scope : ScopeId) :
    Extends (Parse.statement (n + 1) scope) (Parse.statement (n + 2) scope) := by
  rw [Parse.statement, Parse.statement]
  refine after _ fun before => after _ fun _ => .ite (declaration_extends n before) ?_
  refine after _ fun _ => .ite ?_ ?_
  · refine after _ fun _ => .ite ?_ ((assignment_extends n).bind fun _ => refl _)
    exact (ExpressionsExtend.all n).call.bind fun _ => refl _
  refine after _ fun _ => .ite ((ih.conditional scope).bind fun _ => refl _) ?_
  refine after _ fun _ => .ite ?_ ?_
  · exact (expression_extends n _).bind fun _ => (ih.block scope).bind fun _ => refl _
  refine after _ fun _ => .ite ?_ (refl _)
  exact after _ fun _ => (ih.block scope).bind fun _ => refl _

theorem conditional_succ (ih : StatementsExtend n) (scope : ScopeId) :
    Extends (Parse.conditional (n + 1) scope) (Parse.conditional (n + 2) scope) := by
  rw [Parse.conditional, Parse.conditional]
  refine (ih.branches scope).bind fun _ => after _ fun _ => .ite ?_ (refl _)
  exact (ih.block scope).bind fun _ => refl _

theorem branches_succ (ih : StatementsExtend n) (scope : ScopeId) :
    Extends (Parse.branches (n + 1) scope) (Parse.branches (n + 2) scope) := by
  rw [Parse.branches, Parse.branches]
  refine (expression_extends n _).bind fun _ => (ih.block scope).bind fun _ => ?_
  exact after _ fun _ => .ite ((ih.branches scope).bind fun _ => refl _) (refl _)

theorem block_succ (ih : StatementsExtend n) (scope : ScopeId) :
    Extends (Parse.block (n + 1) scope) (Parse.block (n + 2) scope) := by
  rw [Parse.block, Parse.block]
  refine after _ fun before => after _ fun _ => .ite (refl _) (after _ fun inner => ?_)
  exact (ih.blockBody inner).bind fun _ => refl _

theorem blockBody_succ (ih : StatementsExtend n) (scope : ScopeId) :
    Extends (Parse.blockBody (n + 1) scope) (Parse.blockBody (n + 2) scope) := by
  rw [Parse.blockBody, Parse.blockBody]
  refine after _ fun _ => .ite (ih.blockBody scope) (after _ fun _ => .ite (refl _) ?_)
  refine after _ fun _ => .ite (refl _) ?_
  exact (ih.statement scope).bind fun _ => (ih.blockBody scope).bind fun _ => refl _

theorem all : ∀ n, StatementsExtend n
  | 0 =>
    { statement := fun scope => by rw [Parse.statement]; exact of_throw _
      conditional := fun scope => by rw [Parse.conditional]; exact of_throw _
      branches := fun scope => by rw [Parse.branches]; exact of_throw _
      block := fun scope => by rw [Parse.block]; exact of_throw _
      blockBody := fun scope => by rw [Parse.blockBody]; exact of_throw _ }
  | n + 1 =>
    have ih := all n
    ⟨ih.statement_succ, ih.conditional_succ, ih.branches_succ, ih.block_succ, ih.blockBody_succ⟩

end StatementsExtend

theorem programBody_extends_succ : ∀ n, Extends (programBody n) (programBody (n + 1))
  | 0 => of_throw _
  | n + 1 => by
    refine after _ fun _ => .ite (programBody_extends_succ n) (after _ fun _ => .ite (refl _) ?_)
    exact ((StatementsExtend.all n).statement _).bind fun _ =>
      (programBody_extends_succ n).bind fun _ => refl _

/-- **A larger budget changes nothing** unless the smaller one ran out. -/
theorem programBody_extends {n m : Nat} (h : n ≤ m) : Extends (programBody n) (programBody m) := by
  induction h with
  | refl => exact refl _
  | step _ ih => exact ih.trans (programBody_extends_succ _)

end Scriptlet.Parse
