import Mathlib.Data.List.Forall2
import Scriptlet.Proofs.Acceptance

/-! # Truth values and their leaves

What is made with `and`, `or` and `not` is a truth value exactly if its leaves are. The checks of
the two sides of `and` and `or`, and of what stands behind `not`, call one another; `Check.Blames`
says what each of them is to do, which is to report those leaves that are no truth values, each once
and from left to right, and to answer whether there are none. No such check fails: what it asks of a
leaf, a place and a label, every leaf has.
-/
namespace Scriptlet

namespace Node

/-- Whether the node is a leaf of a truth value: a literal, a variable, or something with a sign or
an arithmetic operator that has a place, as all has that `mkSigned` and `mkArithmetic` make. -/
def isTruthLeaf : Node → Bool
  | .literal kind _ _ => kind != .plain
  | .identifier .. => true
  | .signed _ o => o.isPlaced
  | .arithmetic _ l _ => l.isPlaced
  | _ => false

/-- Whether the node is made of leaves with `and`, `or` and `not`. -/
def isTruthTree : Node → Bool
  | .logic _ l r => l.isTruthTree && r.isTruthTree
  | .negation o => o.isTruthTree
  | n => n.isTruthLeaf

/-- What stands below `and`, `or` and `not`, from left to right. -/
def truthLeaves : Node → List Node
  | .logic _ l r => l.truthLeaves ++ r.truthLeaves
  | .negation o => o.truthLeaves
  | n => [n]

/-- The leaves that are no truth values, where `Γ` gives the types of the variables. -/
def offendingLeaves (Γ : String → Option String) (n : Node) : List Node :=
  n.truthLeaves.filter fun leaf => !leaf.isLeafOf Γ "bool"

theorem offendingLeaves_logic {Γ : String → Option String} (op : Logic) (l r : Node) :
    (Node.logic op l r).offendingLeaves Γ = l.offendingLeaves Γ ++ r.offendingLeaves Γ :=
  List.filter_append ..

theorem exists_label_of_isTruthTree {n : Node} (h : n.isTruthTree = true) :
    ∃ text, n.label = .ok text := by
  cases n with
  | literal kind v p =>
    cases kind with
    | plain => exact absurd h Bool.false_ne_true
    | int | float | string | bool => exact ⟨_, rfl⟩
  | identifier | signed | arithmetic | logic | negation => exact ⟨_, rfl⟩
  | _ => cases h

end Node

namespace Check

variable {σ : Scopes} {i : ScopeId} {n : Node} {x y : Check Bool} {blamed others : List Node}

/-- The report stands at the place of the node. -/
def ReportedAt (d : Diagnostic) (n : Node) : Prop :=
  ∃ problem p, n.pos? = some p ∧ d = .typing problem p

/-- Started with the scopes `σ`, the check returns and leaves them as they are. It has reported the
nodes `blamed`, each once and in this order, and answers whether there are none. -/
def Blames (σ : Scopes) (x : Check Bool) (blamed : List Node) : Prop :=
  ∀ s : CheckState, s.scopes = σ → ∃ added,
    x s = .ok blamed.isEmpty ⟨σ, s.reports ++ added⟩ ∧ List.Forall₂ ReportedAt added blamed

/-! ## Small checks -/

theorem blames_nothing : Blames σ (pure true) [] := by
  rintro s rfl
  refine ⟨[], ?_, .nil⟩
  rw [List.append_nil, EStateM.pure_apply, List.isEmpty_nil]

/-- A report of a node, and the answer that it does not fit. -/
theorem blames_misfit {problem : TypeProblem} (hn : n.isPlaced = true) :
    Blames σ (do report problem n; return false) [n] := by
  rintro s rfl
  obtain ⟨p, hp⟩ := Option.isSome_iff_exists.mp hn
  refine ⟨[.typing problem p], ?_, .cons ⟨problem, p, hp, rfl⟩ .nil⟩
  rw [report, Node.pos, hp]
  rfl

/-- A report that names a node, and the answer that another one does not fit. -/
theorem blames_labelledMisfit {problem : String → TypeProblem} {labelled : Node}
    (hlabel : ∃ text, labelled.label = .ok text) (hn : n.isPlaced = true) :
    Blames σ (do
      let text ← ofExcept labelled.label
      report (problem text) n
      return false) [n] := by
  obtain ⟨text, htext⟩ := hlabel
  rw [htext]
  exact blames_misfit hn

/-- Two checks, one after the other, blame what each of them does. -/
theorem Blames.and (hx : Blames σ x blamed) (hy : Blames σ y others) :
    Blames σ (do
      let first ← x
      let second ← y
      return first && second) (blamed ++ others) := by
  rintro s rfl
  obtain ⟨added, hfirst, hadded⟩ := hx s rfl
  obtain ⟨more, hsecond, hmore⟩ := hy ⟨s.scopes, s.reports ++ added⟩ rfl
  refine ⟨added ++ more, ?_, List.rel_append hadded hmore⟩
  rw [EStateM.bind_of_ok hfirst, EStateM.bind_of_ok hsecond, EStateM.pure_apply,
    ← List.append_assoc]
  cases blamed <;> rfl

theorem blames_ite {b : Prop} [Decidable b] (hx : b → Blames σ x blamed)
    (hy : ¬b → Blames σ y blamed) : Blames σ (if b then x else y) blamed := by
  split
  · exact hx ‹_›
  · exact hy ‹_›

/-- Among symbols, the type of a variable is what is seen of it. -/
theorem variableType_apply {s : CheckState} (hs : s.scopes.HoldsSymbols) (x : String) :
    variableType i x s = .ok (typeSeen s.scopes i x) s := by
  rw [variableType, EStateM.bind_of_ok (EStateM.get_apply s), typeSeen]
  cases hx : s.scopes.get? i x with
  | none => rfl
  | some v =>
    obtain ⟨symbol, rfl⟩ := hs.get? hx
    rfl

theorem typeSeen_eq_bool_iff {x : String} :
    typeSeen σ i x = "bool" ↔ σ.declaredType? i x = some "bool" := by
  have hunknown : unknownType = "bool" ↔ none = some "bool" := by simp [unknownType]
  rw [typeSeen, Scopes.declaredType?]
  cases σ.get? i x with
  | none => exact hunknown
  | some v =>
    cases v with
    | symbol symbol =>
      cases hnone : symbol.isNone with
      | true => simp [hnone, emptyType]
      | false => simp [hnone]
    | _ => exact hunknown

/-- A variable is blamed unless it is a truth value. -/
theorem blames_truthVariable (hσ : σ.HoldsSymbols) (x : String) (p : Pos)
    (unknown other : TypeProblem) :
    Blames σ (truthVariable i (.identifier x p) x unknown other)
      ((Node.identifier x p).offendingLeaves (σ.declaredType? i)) := by
  have hafter (y : String → Check Bool) (blamed : List Node)
      (hy : Blames σ (y (typeSeen σ i x)) blamed) : Blames σ (variableType i x >>= y) blamed := by
    rintro s rfl
    rw [EStateM.bind_of_ok (variableType_apply hσ x)]
    exact hy s rfl
  refine hafter _ _ ?_
  by_cases hbool : typeSeen σ i x = "bool"
  · have hfits : (Node.identifier x p).offendingLeaves (σ.declaredType? i) = [] := by
      simp [Node.offendingLeaves, Node.truthLeaves, Node.isLeafOf, typeSeen_eq_bool_iff.mp hbool]
    rw [hfits, hbool]
    exact blames_nothing
  · have hoffends : (Node.identifier x p).offendingLeaves (σ.declaredType? i) =
        [.identifier x p] := by
      simp [Node.offendingLeaves, Node.truthLeaves, Node.isLeafOf,
        mt typeSeen_eq_bool_iff.mpr hbool]
    rw [hoffends, if_pos hbool]
    exact blames_ite (fun _ => blames_misfit rfl) fun _ =>
      blames_ite (fun _ => blames_misfit rfl) fun _ => blames_misfit rfl

/-! ## Operators -/

/-- What is known of the checks of a node as a truth value. -/
structure TruthBlames (σ : Scopes) (i : ScopeId) (n : Node) : Prop where
  logic : n.isLogic = true → Blames σ (logic i n) (n.offendingLeaves (σ.declaredType? i))
  negation : n.isNegation = true → Blames σ (negation i n) (n.offendingLeaves (σ.declaredType? i))

/-- One side of an operation with `and` or `or`. -/
theorem blames_logicOperand (hσ : σ.HoldsSymbols) (operator : String) {labelled : Node}
    (hlabel : ∃ text, labelled.label = .ok text) (hn : n.isTruthTree = true)
    (h : TruthBlames σ i n) :
    Blames σ (logicOperand i operator n labelled (truthParts i n))
      (n.offendingLeaves (σ.declaredType? i)) := by
  cases n with
  | literal kind v p =>
    cases kind with
    | bool => exact blames_nothing
    | int | float | string => exact blames_labelledMisfit hlabel rfl
    | plain => cases hn
  | identifier x p => exact blames_truthVariable hσ x p _ _
  | signed | arithmetic => exact blames_labelledMisfit hlabel hn
  | logic => exact h.logic rfl
  | negation => exact h.negation rfl
  | _ => cases hn

/-- What `not` applies to. -/
theorem blames_negationOperand (hσ : σ.HoldsSymbols) {whole : Node} (hn : n.isTruthTree = true)
    (h : TruthBlames σ i n) :
    Blames σ (negationOperand i whole n (truthParts i n))
      (n.offendingLeaves (σ.declaredType? i)) := by
  have hlabel := Node.exists_label_of_isTruthTree hn
  cases n with
  | literal kind v p =>
    cases kind with
    | bool => exact blames_nothing
    | int | float | string => exact blames_labelledMisfit hlabel rfl
    | plain => cases hn
  | identifier x p => exact blames_truthVariable hσ x p _ _
  | signed | arithmetic => exact blames_labelledMisfit hlabel hn
  | logic => exact h.logic rfl
  | negation => exact h.negation rfl
  | _ => cases hn

theorem truthBlames (hσ : σ.HoldsSymbols) :
    ∀ {n : Node}, n.isTruthTree = true → TruthBlames σ i n
  | .logic op l r, hn => by
    obtain ⟨hl, hr⟩ := Bool.and_eq_true_iff.mp hn
    refine ⟨fun _ => ?_, fun h => absurd h Bool.false_ne_true⟩
    have hlabel := Node.exists_label_of_isTruthTree hl
    rw [Node.offendingLeaves_logic, Check.logic]
    exact (blames_logicOperand hσ _ hlabel hl (truthBlames hσ hl)).and
      (blames_logicOperand hσ _ hlabel hr (truthBlames hσ hr))
  | .negation o, hn => by
    refine ⟨fun h => absurd h Bool.false_ne_true, fun _ => ?_⟩
    rw [Check.negation]
    exact blames_negationOperand (n := o) hσ hn (truthBlames hσ hn)
  | .literal .., _ | .identifier .., _ | .signed .., _ | .arithmetic .., _ =>
    ⟨fun h => absurd h Bool.false_ne_true, fun h => absurd h Bool.false_ne_true⟩

/-- **Truth values are checked exactly.** Among symbols, the check of `and` or `or` over leaves
returns and leaves the scopes as they are. It adds one report for each leaf that is no truth value,
at its place and from left to right, and finds a truth value exactly if there is no such leaf. The
same holds of the check of `not`. -/
theorem truth_checked_exactly {s : CheckState} (hs : s.scopes.HoldsSymbols)
    (htree : n.isTruthTree = true) :
    let offending := n.truthLeaves.filter fun leaf =>
      !leaf.isLeafOf (s.scopes.declaredType? i) "bool"
    (n.isLogic = true → ∃ added,
      logic i n s = .ok offending.isEmpty ⟨s.scopes, s.reports ++ added⟩ ∧
        List.Forall₂ ReportedAt added offending) ∧
    (n.isNegation = true → ∃ added,
      negation i n s = .ok offending.isEmpty ⟨s.scopes, s.reports ++ added⟩ ∧
        List.Forall₂ ReportedAt added offending) := by
  have hblames := truthBlames (i := i) hs htree
  exact ⟨fun hroot => hblames.logic hroot s rfl, fun hroot => hblames.negation hroot s rfl⟩

/-- A check at the start of which `b` is a truth value. -/
def truthB : CheckState :=
  ⟨({} : Scopes).define Scopes.root "b" (.symbol ⟨"bool", true, false⟩), []⟩

/-- `not (b and 1) or c` -/
def mixedTruth : Node :=
  .logic .or
    (.negation (.logic .and (.identifier "b" ⟨1, 6⟩) (.literal .int (.int 1) ⟨1, 12⟩)))
    (.identifier "c" ⟨1, 18⟩)

/-- In `not (b and 1) or c`, where `c` is unknown, `1` and `c` are reported. -/
theorem mixedTruth_checked :
    ∃ added, logic Scopes.root mixedTruth truthB = .ok false ⟨truthB.scopes, added⟩ ∧
      List.Forall₂ ReportedAt added
        [.literal .int (.int 1) ⟨1, 12⟩, .identifier "c" ⟨1, 18⟩] := by
  have hsymbols : truthB.scopes.HoldsSymbols :=
    (holdsSymbols_of_isFresh Scopes.isFresh_empty).define _ _ _
  have hoffending : (mixedTruth.truthLeaves.filter fun leaf =>
      !leaf.isLeafOf (truthB.scopes.declaredType? Scopes.root) "bool") =
        [.literal .int (.int 1) ⟨1, 12⟩, .identifier "c" ⟨1, 18⟩] := by
    with_unfolding_all rfl
  have hexact := (truth_checked_exactly (n := mixedTruth) (i := Scopes.root) hsymbols rfl).1 rfl
  rwa [hoffending] at hexact

end Check

end Scriptlet
