import Scriptlet.Proofs.CheckedTypes
import Scriptlet.Proofs.TypedEvaluation

/-! # What the checker accepts runs

The checker looks at a program before it runs so that no operation meets values of a kind that it is
not defined on. This module puts the two sides together: what the checker accepts has a type as far
as it looks (`CheckedTypes`), and what has a type so far runs (`TypedEvaluation`).

Two things stand in the way of more. The checker passes over an operation to the right of an
arithmetic operator, and over `and` and `or` to the right of an equality: it looks at the left side
once more in their place. And types do not see the exponent of a power, which can lead from the
integers to the floating-point numbers and on to the complex ones.
-/
namespace Scriptlet

open Run

/-- **What the checker accepts runs, as far as it has looked.** Let the store hold values of the
types of the variables.

An operation that it finds to fit the integers stops at a reported division or remainder by zero, or
it gives an integer exactly if every operation to the right of an operator gives one and no power
has a negative exponent (`KeepsInts`).

A condition of which it reports nothing has a truth value, if it has a value. If the parts that were
passed over fit, then it meets a fault about the kinds of values exactly where a remainder or an
order is asked of a complex number. -/
theorem evaluation_of_checked {s : CheckState} {i j : ScopeId} {m : Machine}
    (hm : m.Holds j (s.scopes.declaredType? i)) :
    (∀ e type s', e.isOperation = true → e.IsArithmetic →
      Check.arithmetic i e "int" s = .ok (type, true) s' →
        StopsAtZero j m e ∨ ((∃ k, eval j e m = .ok (.int k) m) ↔ KeepsInts j m e)) ∧
    ∀ c s', c.IsExpression → Check.condition i c s = .ok () s' → s'.reports = s.reports →
      (∀ v m', eval j c m = .ok v m' → ∃ b, v = .bool b) ∧
      (GapsFit j m c →
        ((∃ f m', eval j c m = .error f m' ∧ f.isOfKinds = true) ↔
          ∃ n, Reaches j m c n ∧ MeetsComplex j m n)) := by
  constructor
  · intro e type s' hoperation he hcheck
    have hint : Check.IsExpected "int" := .inl rfl
    have hparts := Check.numberParts (σ := s.scopes) (i := i) e he.isExpression
    obtain ⟨-, -, hanswer, -⟩ := hparts.arithmetic hoperation "int" hint rfl hcheck
    have htype : "int" = type := (hanswer.eq_or rfl).resolve_right (by decide)
    subst htype
    exact int_iff_keepsInts (hanswer.vetted rfl) he hm
  · intro c s' hc hcheck hquiet
    obtain ⟨-, -, -, htruth⟩ := Check.condition_meets hc rfl hcheck
    have hvetted := htruth hquiet
    exact ⟨fun v m' => bool_of_vetted hvetted hc hm, ofKinds_iff_meetsComplex hvetted hc hm⟩


/-! ## Two runs -/

/-- `(1 + 1) + ("a" - 1)` -/
def skippedDifference : Node :=
  .arithmetic .add
    (.arithmetic .add (.literal .int (.int 1) ⟨1, 0⟩) (.literal .int (.int 1) ⟨1, 2⟩))
    (.arithmetic .sub (.literal .string (.str "a") ⟨1, 4⟩) (.literal .int (.int 1) ⟨1, 6⟩))

/-- The checker finds that the operation fits the integers, for it has not looked at the
difference, and the run meets the fault that a text has no difference with a number. -/
theorem skippedDifference_accepted :
    Check.arithmetic Scopes.root skippedDifference "int" ⟨{}, []⟩ = .ok ("int", true) ⟨{}, []⟩ ∧
      eval Scopes.root skippedDifference {} = .error (.operands "-" "str" "int") {} :=
  ⟨rfl, rfl⟩

/-- A scope in which `x` is an integer. -/
def integerScope : CheckState :=
  { scopes := { frames := #[{ bindings := [("x", .symbol ⟨"int", true, false⟩)] }] } }

/-- A store in which `x` is seven. -/
def sevenStore : Machine :=
  { scopes := { frames := #[{ bindings := [("x", .int 7)] }] } }

/-- `(2 * x) + x ** 2` -/
def doubleAndSquare : Node :=
  .arithmetic .add (.arithmetic .mul (.literal .int (.int 2) ⟨1, 0⟩) (.identifier "x" ⟨1, 2⟩))
    (.arithmetic .pow (.identifier "x" ⟨1, 4⟩) (.literal .int (.int 2) ⟨1, 6⟩))

/-- `(2 * x) + x ** 2 < 70` -/
def isSmall : Node :=
  .comparison .less doubleAndSquare (.literal .int (.int 70) ⟨1, 8⟩)

/-- The value of a name, seen from a scope that lies in no other. -/
theorem Scopes.get?_of_outermost {s : Scopes} {i : ScopeId} (h : s.parent? i = none) (x : String) :
    s.get? i x = (s.bindings i).get? x := by
  have hchain : s.chain i = [i] := by rw [Scopes.chain, h]
  rw [Scopes.get?, Scopes.owner?, hchain, List.find?_singleton]
  split
  · rfl
  · rename_i hbinds
    rw [Bindings.binds, Bool.not_eq_true, Option.isSome_eq_false_iff, Option.isNone_iff_eq_none]
      at hbinds
    exact hbinds.symm

theorem sevenStore_holds :
    sevenStore.Holds Scopes.root (integerScope.scopes.declaredType? Scopes.root) := by
  intro x t hx _
  by_cases hname : x = "x"
  · subst hname
    have htype : integerScope.scopes.declaredType? Scopes.root "x" = some "int" := by
      with_unfolding_all rfl
    cases htype.symm.trans hx
    exact ⟨.int 7, by with_unfolding_all rfl, rfl⟩
  · have hget : integerScope.scopes.get? Scopes.root x = none := by
      rw [Scopes.get?_of_outermost rfl]
      show List.lookup x [("x", _)] = none
      rw [List.lookup_cons, beq_false_of_ne hname]
      rfl
    rw [Scopes.declaredType?, hget] at hx
    cases hx

/-- The condition has no other gaps than the sum in it. -/
theorem isSmall_gapsFit (h : KeepsInts Scopes.root sevenStore doubleAndSquare)
    (hsum : doubleAndSquare.IsArithmetic) : GapsFit Scopes.root sevenStore isSmall := by
  refine ⟨fun op l r hn hr => ?_, fun op l r hn heq _ => ?_⟩
  · cases hn with
    | comparisonLeft hn =>
      obtain ⟨k, hk⟩ := h.skipped op l r hn hr
      rw [FitsGap, hk]
      exact ⟨.int k, rfl⟩
    | comparisonRight _ hn => cases hn
  · cases hn with
    | refl => cases heq
    | comparisonLeft hn => exact (hn.isArithmetic hsum).elim
    | comparisonRight _ hn => cases hn

/-- The sum is accepted and gives an integer, and the condition is accepted and gives a truth
value: what was passed over fits, and nothing on the way is complex. -/
theorem doubleAndSquare_runs :
    Check.arithmetic Scopes.root doubleAndSquare "int" integerScope =
      .ok ("int", true) integerScope ∧
    KeepsInts Scopes.root sevenStore doubleAndSquare ∧
    Check.condition Scopes.root isSmall integerScope = .ok () integerScope ∧
    ¬∃ n, Reaches Scopes.root sevenStore isSmall n ∧ MeetsComplex Scopes.root sevenStore n := by
  obtain ⟨hints, htruths⟩ := evaluation_of_checked sevenStore_holds
  have hchecked : Check.arithmetic Scopes.root doubleAndSquare "int" integerScope =
      .ok ("int", true) integerScope := by
    with_unfolding_all rfl
  have hcondition : Check.condition Scopes.root isSmall integerScope = .ok () integerScope := by
    with_unfolding_all rfl
  have hvalue : eval Scopes.root doubleAndSquare sevenStore = .ok (.int 63) sevenStore := by
    with_unfolding_all rfl
  have hless : eval Scopes.root isSmall sevenStore = .ok (.bool true) sevenStore := by
    with_unfolding_all rfl
  have harithmetic : doubleAndSquare.IsArithmetic :=
    ⟨rfl, ⟨rfl, ⟨"int", rfl, rfl⟩, trivial⟩, rfl, trivial, "int", rfl, rfl⟩
  have hexpression : isSmall.IsExpression := ⟨rfl, harithmetic.isExpression, "int", rfl, rfl⟩
  have hkeeps : KeepsInts Scopes.root sevenStore doubleAndSquare := by
    refine ((hints _ _ _ rfl harithmetic hchecked).resolve_left ?_).mp ⟨63, hvalue⟩
    rintro ⟨p, d, -, hstop⟩
    cases hvalue.symm.trans hstop
  refine ⟨hchecked, hkeeps, hcondition, ?_⟩
  rw [← (htruths _ _ hexpression hcondition rfl).2 (isSmall_gapsFit hkeeps harithmetic)]
  rintro ⟨f, m', hf, -⟩
  cases hless.symm.trans hf

end Scriptlet
