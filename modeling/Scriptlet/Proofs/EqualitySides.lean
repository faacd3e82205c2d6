import Scriptlet.Proofs.AcceptanceCompleteness

/-! # The two sides of an equality

An equality is accepted if its sides are accepted with one type, and the right one is neither a
variable nor `and` or `or`: in these two cases the checker takes what it has found of the right side
for an answer about the left one. So an equality and the same one with its sides exchanged are not
always accepted alike.
-/
namespace Scriptlet.Check

variable {i : ScopeId}

/-- Equality compares values of all types. -/
theorem mem_comparable_of_mem_typeNames {t : String} (h : t ∈ typeNames) :
    t ∈ comparable .equality := by
  revert t
  decide

/-- Whether an expression is never accepted to the right of an equality. -/
def isLeftOnly (n : Node) : Bool :=
  n.isVariable || n.isLogic

/-- The check finds that the comparison fits. -/
def AcceptsComparison (i : ScopeId) (s : CheckState) (op : Comparison) (l r : Node) : Prop :=
  ∃ s', comparison i (.comparison op l r) s = .ok true s'

theorem acceptsComparison_iff {s : CheckState} {op : Comparison}
    (hop : op = .equal ∨ op = .different) {l r : Node} :
    AcceptsComparison i s op l r ↔
      (∃ t, Accepted (s.scopes.declaredType? i) l t ∧ Accepted (s.scopes.declaredType? i) r t) ∧
        isLeftOnly r = false := by
  have hfamily : familyOf op.symbol = .equality := by rcases hop with rfl | rfl <;> rfl
  rw [AcceptsComparison, comparison_accepts_iff rfl]
  constructor
  · intro h
    cases h with
    | comparison _ hl hr hvariable hlogic =>
      exact ⟨⟨_, hl, hr⟩, by rw [isLeftOnly, hvariable, hlogic]; rfl⟩
  · rintro ⟨⟨t, hl, hr⟩, hside⟩
    obtain ⟨hvariable, hlogic⟩ := Bool.or_eq_false_iff.mp hside
    refine .comparison ?_ hl hr hvariable hlogic
    rw [hfamily]
    exact mem_comparable_of_mem_typeNames hl.mem_typeNames

/-- **When the sides of an equality can be exchanged.** An equality is accepted exactly if its sides
are accepted with one type and the right one is neither a variable nor `and` or `or`. So `l == r`
and `r == l` are accepted alike exactly if the sides have no type in common, or both or none of them
are such. -/
theorem equality_symmetric_iff {s : CheckState} {op : Comparison}
    (hop : op = .equal ∨ op = .different) (l r : Node) :
    (AcceptsComparison i s op l r ↔
      (∃ t, Accepted (s.scopes.declaredType? i) l t ∧ Accepted (s.scopes.declaredType? i) r t) ∧
        isLeftOnly r = false) ∧
    ((AcceptsComparison i s op l r ↔ AcceptsComparison i s op r l) ↔
      ∀ t, Accepted (s.scopes.declaredType? i) l t → Accepted (s.scopes.declaredType? i) r t →
        isLeftOnly l = isLeftOnly r) := by
  refine ⟨acceptsComparison_iff hop, ?_⟩
  rw [acceptsComparison_iff hop, acceptsComparison_iff hop]
  constructor
  · intro hsame t hl hr
    cases hleft : isLeftOnly l with
    | false => exact (hsame.mpr ⟨⟨t, hr, hl⟩, hleft⟩).2.symm
    | true =>
      cases hright : isLeftOnly r with
      | true => rfl
      | false => exact hleft.symm.trans (hsame.mp ⟨⟨t, hl, hr⟩, hright⟩).2
  · intro hsame
    constructor
    · rintro ⟨⟨t, hl, hr⟩, hright⟩
      exact ⟨⟨t, hr, hl⟩, (hsame t hl hr).trans hright⟩
    · rintro ⟨⟨t, hr, hl⟩, hleft⟩
      exact ⟨⟨t, hl, hr⟩, (hsame t hl hr).symm.trans hleft⟩

/-- A check at the start of which `x` is an integer and `b` a truth value. -/
def numberAndTruth : CheckState :=
  ⟨⟨#[{ bindings := [("x", .symbol ⟨"int", true, false⟩), ("b", .symbol ⟨"bool", true, false⟩)] }]⟩,
    []⟩

/-- `1 < 1 + x` -/
def oneBelowSum : Node :=
  .comparison .less (.literal .int (.int 1) ⟨1, 1⟩)
    (.arithmetic .add (.literal .int (.int 1) ⟨1, 5⟩) (.identifier "x" ⟨1, 8⟩))

/-- `not b` -/
def notB : Node :=
  .negation (.identifier "b" ⟨1, 16⟩)

/-- `(1 < 1 + x) == not b` and `not b == (1 < 1 + x)` are both accepted. -/
theorem oneBelowSum_equals_notB :
    AcceptsComparison Scopes.root numberAndTruth .equal oneBelowSum notB ∧
      (AcceptsComparison Scopes.root numberAndTruth .equal oneBelowSum notB ↔
        AcceptsComparison Scopes.root numberAndTruth .equal notB oneBelowSum) := by
  refine ⟨⟨_, by with_unfolding_all rfl⟩, ?_⟩
  exact (equality_symmetric_iff (.inl rfl) oneBelowSum notB).2.mpr fun _ _ _ => rfl

/-- With an integer `x`, the checker accepts `x == 5` and does not accept `5 == x`. -/
theorem fiveEqualsX_asymmetric :
    AcceptsComparison Scopes.root numberAndTruth .equal (.identifier "x" ⟨1, 1⟩)
        (.literal .int (.int 5) ⟨1, 6⟩) ∧
      ¬AcceptsComparison Scopes.root numberAndTruth .equal (.literal .int (.int 5) ⟨1, 1⟩)
        (.identifier "x" ⟨1, 6⟩) := by
  refine ⟨⟨_, by with_unfolding_all rfl⟩, fun h => ?_⟩
  exact absurd ((acceptsComparison_iff (.inl rfl)).mp h).2 (by decide)

end Scriptlet.Check
