import Scriptlet.Proofs.AcceptanceCompleteness

/-! # Arithmetic and its leaves

An operation on numbers of one type is to be accepted exactly if all its leaves are of that type.
The checker looks at the sides of the operation, and goes on with the left side if it is an
operation itself, but not with the right one: there it checks the left side once more. So it sees
the leaves on the *left spine* only, and it needs an operation to the left of an operation. It
stumbles besides over variables of another type, and over unknown ones on the right.

`Check.arithmetic_exact_iff` says of which operations the check gives the answer that it is to give.
-/
namespace Scriptlet

namespace Node

/-- Whether the node is made of operations, number literals and variables. -/
def isNumberTree : Node → Bool
  | .literal kind _ _ => kind = .int || kind = .float
  | .identifier .. => true
  | .arithmetic _ l r => l.isNumberTree && r.isNumberTree
  | _ => false

/-- What the operations are made of, from left to right. -/
def numberLeaves : Node → List Node
  | .arithmetic _ l r => l.numberLeaves ++ r.numberLeaves
  | n => [n]

/-- The two sides of an operation, those of the operation to its left, and so on. -/
def leftSpine : Node → List (Node × Node)
  | .arithmetic _ l r => (l, r) :: l.leftSpine
  | _ => []

/-- What holds of an operation if something holds of its sides, and if it holds of the left side in
case that is an operation, holds if that something holds along the spine. -/
theorem iff_forall_leftSpine {P : Node → Prop} {Q : Node → Node → Prop}
    (hstep : ∀ op {l r}, l.isNumberTree = true → r.isNumberTree = true →
      (P (.arithmetic op l r) ↔ Q l r ∧ (l.isOperation = true → P l))) :
    ∀ {n : Node}, n.isNumberTree = true → n.isOperation = true →
      (P n ↔ ∀ sides ∈ n.leftSpine, Q sides.1 sides.2)
  | .arithmetic op l r, hn, _ => by
    obtain ⟨hl, hr⟩ := Bool.and_eq_true_iff.mp hn
    rw [hstep op hl hr, leftSpine, List.forall_mem_cons]
    refine and_congr_right fun _ => ?_
    cases hform : l.isOperation with
    | true => rw [imp_iff_right rfl, iff_forall_leftSpine hstep hl hform]
    | false =>
      have hnil : l.leftSpine = [] := by
        cases l with
        | arithmetic => cases hform
        | _ => rfl
      simp [hnil]

theorem isPlaced_of_isNumberTree : ∀ {n : Node}, n.isNumberTree = true → n.isPlaced = true
  | .literal .., _ | .identifier .., _ => rfl
  | .arithmetic _ l _, h =>
    isPlaced_of_isNumberTree (n := l) (Bool.and_eq_true_iff.mp h).1

theorem isOperand_of_isNumberTree : ∀ {n : Node}, n.isNumberTree = true → n.IsOperand
  | .literal kind _ _, h => by
    rintro rfl
    exact absurd h Bool.false_ne_true
  | .identifier .., _ => trivial
  | .arithmetic .., h =>
    have hsides := Bool.and_eq_true_iff.mp h
    ⟨isPlaced_of_isNumberTree hsides.1, isOperand_of_isNumberTree hsides.1,
      isOperand_of_isNumberTree hsides.2⟩

end Node

namespace Check

variable {σ : Scopes} {i : ScopeId} {t : String} {n l r : Node}

/-! ## What is asked of the spine -/

/-- The check gets over the two sides of an operation. The type that is seen of a variable on the
left is the expected one, or the variable is empty or unknown; on the right it must not be unknown.
An operation on the right needs one on the left. -/
def sidesPass (Γ : String → String) (t : String) (l r : Node) : Bool :=
  (match l with
    | .identifier x _ => Γ x = unknownType || Γ x = emptyType || Γ x = t
    | _ => true) &&
  (match r with
    | .identifier x _ => Γ x = emptyType || Γ x = t
    | _ => true) &&
  (!r.isOperation || l.isOperation)

/-- The leaves among the two sides of an operation are of the type. -/
def sidesFit (Γ : String → Option String) (t : String) (l r : Node) : Bool :=
  (l.isOperation || l.isLeafOf Γ t) && (r.isOperation || r.isLeafOf Γ t)

/-- **Which operations the check gets over**: step by step along the spine. -/
theorem operationClean_arithmetic {Γ : String → String} (ht : t ≠ unsettledType) (op : Arithmetic)
    (hl : l.isNumberTree = true) (hr : r.isNumberTree = true) :
    operationClean Γ t (.arithmetic op l r) = true ↔
      sidesPass Γ t l r = true ∧ (l.isOperation = true → operationClean Γ t l = true) := by
  rw [operationClean, settledAfter_of_settled ht]
  cases l with
  | literal | identifier =>
    cases r with
    | literal | identifier =>
      simp [leftClean, rightClean, sidesPass, operationClean, Node.isOperation]
    | arithmetic => simp [leftClean, rightClean, sidesPass, operationClean, Node.isOperation, ht]
    | _ => cases hr
  | arithmetic =>
    cases r with
    | literal | identifier =>
      simp [leftClean, rightClean, sidesPass, Node.isOperation, and_comm]
    | arithmetic => simp [leftClean, rightClean, sidesPass, Node.isOperation, ht]
    | _ => cases hr
  | _ => cases hl

theorem acceptedNumber_leaf_iff {Γ : String → Option String} (ht : isNumberType t = true)
    (hn : n.isNumberTree = true) (hleaf : n.isOperation = false) :
    AcceptedNumber Γ t n t ↔ n.isLeafOf Γ t = true := by
  cases n with
  | literal kind v p =>
    rw [Node.isLeafOf, decide_eq_true_iff]
    refine ⟨fun h => ?_, fun hkind => .literal hkind ht (.inl rfl)⟩
    cases h with
    | literal hkind => exact hkind
  | identifier x p =>
    rw [Node.isLeafOf, decide_eq_true_iff]
    refine ⟨fun h => ?_, fun hx => .identifier hx ht⟩
    cases h with
    | identifier hx => exact hx
  | arithmetic => cases hleaf
  | _ => cases hn

/-- **Which operations are accepted**: step by step along the spine. -/
theorem acceptedNumber_arithmetic {Γ : String → Option String} (ht : isNumberType t = true)
    (op : Arithmetic) (hl : l.isNumberTree = true) (hr : r.isNumberTree = true) :
    AcceptedNumber Γ t (.arithmetic op l r) t ↔
      (sidesFit Γ t l r = true ∧ (r.isOperation = true → l.isOperation = true)) ∧
        (l.isOperation = true → AcceptedNumber Γ t l t) := by
  have hleft : AcceptedNumber Γ t l t ↔ (l.isOperation || l.isLeafOf Γ t) = true ∧
      (l.isOperation = true → AcceptedNumber Γ t l t) := by
    cases hform : l.isOperation with
    | true => simp
    | false => simp [acceptedNumber_leaf_iff ht hl hform]
  have hsides : AcceptedNumber Γ t (.arithmetic op l r) t ↔
      AcceptedNumber Γ t l t ∧ (r.isOperation || r.isLeafOf Γ t) = true ∧
        (r.isOperation = true → l.isOperation = true) := by
    cases hform : r.isOperation with
    | true =>
      refine ⟨fun h => ?_, fun h => .beforeOperation h.1 (h.2.2 rfl) hform⟩
      cases h with
      | arithmetic _ _ hleaf => exact absurd (hleaf.symm.trans hform) Bool.false_ne_true
      | beforeOperation hl hleft => exact ⟨hl, rfl, fun _ => hleft⟩
    | false =>
      rw [Bool.false_or, ← acceptedNumber_leaf_iff ht hr hform]
      refine ⟨fun h => ?_, fun h => .arithmetic h.1 h.2.1 hform⟩
      cases h with
      | arithmetic hl hr => exact ⟨hl, hr, fun h => absurd h Bool.false_ne_true⟩
      | beforeOperation _ _ hright => exact absurd (hform.symm.trans hright) Bool.false_ne_true
  rw [hsides, sidesFit, Bool.and_eq_true]
  exact ⟨fun h => ⟨⟨⟨(hleft.mp h.1).1, h.2.1⟩, h.2.2⟩, (hleft.mp h.1).2⟩,
    fun h => ⟨hleft.mpr ⟨h.1.1.1, h.2⟩, h.1.1.2, h.1.2⟩⟩

/-- All leaves of an operation are of the type, step by step along the spine. -/
theorem leaves_arithmetic {Γ : String → Option String} (op : Arithmetic) (l r : Node) :
    (∀ leaf ∈ (Node.arithmetic op l r).numberLeaves, leaf.isLeafOf Γ t = true) ↔
      (sidesFit Γ t l r = true ∧
        (r.isOperation = true → ∀ leaf ∈ r.numberLeaves, leaf.isLeafOf Γ t = true)) ∧
        (l.isOperation = true → ∀ leaf ∈ l.numberLeaves, leaf.isLeafOf Γ t = true) := by
  have hleaves {n : Node} (hleaf : n.isOperation = false) : n.numberLeaves = [n] := by
    cases n with
    | arithmetic => cases hleaf
    | _ => rfl
  rw [Node.numberLeaves, List.forall_mem_append, sidesFit, Bool.and_eq_true]
  cases hleft : l.isOperation <;> cases hright : r.isOperation
  · simp [hleaves hleft, hleaves hright]
  · simp [hleaves hleft]
  · simp [hleaves hright, and_comm]
  · simp [and_comm]

/-! ## Exactness -/

/-- The check of the operation returns, and finds that it fits exactly if all its leaves are of the
type. -/
def ChecksExactly (i : ScopeId) (s : CheckState) (t : String) (n : Node) : Prop :=
  ∃ answer s', arithmetic i n t s = .ok answer s' ∧
    (answer.2 = true ↔ ∀ leaf ∈ n.numberLeaves, leaf.isLeafOf (s.scopes.declaredType? i) t = true)

/-- The check of an operation returns exactly if it gets over all sides along the spine. -/
theorem arithmetic_returns_iff {s : CheckState} (hs : s.scopes.HoldsSymbols)
    (ht : isNumberType t = true) (htree : n.isNumberTree = true) (hn : n.isOperation = true) :
    (∃ answer s', arithmetic i n t s = .ok answer s') ↔
      ∀ sides ∈ n.leftSpine, sidesPass (typeSeen s.scopes i) t sides.1 sides.2 = true := by
  have hsettled := ne_unsettledType_of_isNumberType ht
  have hclean : operationClean (typeSeen s.scopes i) t n = true ↔
      ∀ sides ∈ n.leftSpine, sidesPass (typeSeen s.scopes i) t sides.1 sides.2 = true :=
    Node.iff_forall_leftSpine (P := fun n => operationClean (typeSeen s.scopes i) t n = true)
      (fun op _ _ hl hr => operationClean_arithmetic hsettled op hl hr) htree hn
  obtain ⟨hreturns, hslip⟩ :=
    (numberOutcomes (i := i) hs (Node.isOperand_of_isNumberTree htree)).arithmetic t s rfl
  rw [← hclean]
  constructor
  · rintro ⟨answer, s', hs'⟩
    refine Classical.byContradiction fun hnot => ?_
    obtain ⟨f, t', hf, -⟩ := hslip hnot
    cases hs'.symm.trans hf
  · intro h
    obtain ⟨answer, s', hs', -⟩ := hreturns h
    exact ⟨answer, s', hs'⟩

/-- If it returns, it has found that the operation fits exactly if the leaves on the spine do. -/
theorem arithmetic_answer_iff {s s' : CheckState} {answer : String × Bool}
    (hs : s.scopes.HoldsSymbols) (ht : isNumberType t = true) (htree : n.isNumberTree = true)
    (hn : n.isOperation = true) (h : arithmetic i n t s = .ok answer s') :
    answer.2 = true ↔
      ∀ sides ∈ n.leftSpine,
        sidesFit (s.scopes.declaredType? i) t sides.1 sides.2 = true := by
  have haccepted := Node.iff_forall_leftSpine
    (P := fun n => AcceptedNumber (s.scopes.declaredType? i) t n t)
    (fun op _ _ hl hr => acceptedNumber_arithmetic ht op hl hr) htree hn
  have hpass := (arithmetic_returns_iff hs ht htree hn).mp ⟨answer, s', h⟩
  obtain ⟨type, fits⟩ := answer
  constructor
  · rintro rfl
    have hfound := (arithmetic_accepts_iff (.inl ht) hn).mp ⟨s', h⟩
    cases hfound.eq_of_settled (ne_unsettledType_of_isNumberType ht)
    exact fun sides hmem => (haccepted.mp hfound sides hmem).1
  · intro hfit
    -- that the check has got over the spine says that operations stand to the left of operations
    have hfound := haccepted.mpr fun sides hmem => ⟨hfit sides hmem, fun hright => by
      have hsides := (Bool.and_eq_true_iff.mp (hpass sides hmem)).2
      rwa [hright] at hsides⟩
    obtain ⟨s'', hs''⟩ := (arithmetic_accepts_iff (.inl ht) hn).mpr hfound
    cases h.symm.trans hs''
    rfl

/-- **When arithmetic is checked exactly.** The check of an operation on number literals and
variables returns exactly if it gets over the sides of all operations on the left spine, and then it
finds that the operation fits exactly if the leaves on the spine do. So it is exact if and only if
it gets over the spine and, in case that the leaves there fit, those of the operations to the right
of an operator do too. -/
theorem arithmetic_exact_iff {s : CheckState} (hs : s.scopes.HoldsSymbols)
    (ht : t = "int" ∨ t = "float") (htree : n.isNumberTree = true) (hn : n.isOperation = true) :
    let passes := ∀ sides ∈ n.leftSpine,
      sidesPass (typeSeen s.scopes i) t sides.1 sides.2 = true
    let fits := ∀ sides ∈ n.leftSpine, sidesFit (s.scopes.declaredType? i) t sides.1 sides.2 = true
    ((∃ answer s', arithmetic i n t s = .ok answer s') ↔ passes) ∧
    (∀ answer s', arithmetic i n t s = .ok answer s' → (answer.2 = true ↔ fits)) ∧
    (ChecksExactly i s t n ↔ passes ∧ (fits → ∀ sides ∈ n.leftSpine, sides.2.isOperation = true →
      ∀ leaf ∈ sides.2.numberLeaves, leaf.isLeafOf (s.scopes.declaredType? i) t = true)) := by
  intro passes fits
  have hnumber : isNumberType t = true := by rcases ht with rfl | rfl <;> rfl
  have hreturns : (∃ answer s', arithmetic i n t s = .ok answer s') ↔ passes :=
    arithmetic_returns_iff hs hnumber htree hn
  have hanswer : ∀ answer s', arithmetic i n t s = .ok answer s' → (answer.2 = true ↔ fits) :=
    fun _ _ h => arithmetic_answer_iff hs hnumber htree hn h
  have hleaves := Node.iff_forall_leftSpine
    (P := fun n => ∀ leaf ∈ n.numberLeaves, leaf.isLeafOf (s.scopes.declaredType? i) t = true)
    (fun op l r _ _ => leaves_arithmetic op l r) htree hn
  refine ⟨hreturns, hanswer, ?_⟩
  constructor
  · rintro ⟨answer, s', h, hexact⟩
    refine ⟨hreturns.mp ⟨answer, s', h⟩, fun hfits sides hmem => ?_⟩
    exact (hleaves.mp (hexact.mp ((hanswer _ _ h).mpr hfits)) sides hmem).2
  · rintro ⟨hpasses, hright⟩
    obtain ⟨answer, s', h⟩ := hreturns.mpr hpasses
    refine ⟨answer, s', h, (hanswer _ _ h).trans ⟨fun hfits => ?_, fun hall sides hmem => ?_⟩⟩
    · exact hleaves.mpr fun sides hmem => ⟨hfits sides hmem, hright hfits sides hmem⟩
    · exact (hleaves.mp hall sides hmem).1

/-- A check at the start of which `x` is an integer. -/
def integerX : CheckState :=
  ⟨({} : Scopes).define Scopes.root "x" (.symbol ⟨"int", true, false⟩), []⟩

/-- `1 * x + x * 2` -/
def sumOfProducts : Node :=
  .arithmetic .add
    (.arithmetic .mul (.literal .int (.int 1) ⟨1, 1⟩) (.identifier "x" ⟨1, 5⟩))
    (.arithmetic .mul (.identifier "x" ⟨1, 9⟩) (.literal .int (.int 2) ⟨1, 13⟩))

/-- `1 * x + x * 2` is checked exactly. -/
theorem sumOfProducts_exact : ChecksExactly Scopes.root integerX "int" sumOfProducts := by
  have hsymbols : integerX.scopes.HoldsSymbols :=
    (holdsSymbols_of_isFresh Scopes.isFresh_empty).define _ _ _
  exact (arithmetic_exact_iff hsymbols (.inl rfl) rfl rfl).2.2.mpr
    ⟨by decide +kernel, fun _ => by decide +kernel⟩

/-- `1 + 2 * 3` -/
def onePlusProduct : Node :=
  .arithmetic .add (.literal .int (.int 1) ⟨1, 1⟩)
    (.arithmetic .mul (.literal .int (.int 2) ⟨1, 5⟩) (.literal .int (.int 3) ⟨1, 9⟩))

/-- `1 + 2 * 3`, which is made of integers, is not checked exactly: the check does not return. -/
theorem onePlusProduct_inexact : ¬ChecksExactly Scopes.root integerX "int" onePlusProduct := by
  rintro ⟨answer, s', h, -⟩
  have hfault : fault? (arithmetic Scopes.root onePlusProduct "int" integerX) = none := by
    rw [h]
    rfl
  exact absurd hfault (by decide +kernel)

end Check

end Scriptlet
