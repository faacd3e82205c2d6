import Scriptlet.Proofs.Acceptance

/-! # All that the rules accept is found to fit

By induction on the rules, the check of what they accept gives the answer that it fits, and the type
that they name. Together with the other direction, the rules say exactly what the checker accepts
(`Check.arithmetic_accepts_iff`, `Check.comparison_accepts_iff`).
-/
namespace Scriptlet.Check

variable {α β : Type} {σ : Scopes} {i : ScopeId} {x y : Check α} {a : α}

/-! ## Answers that are given -/

/-- Started with the scopes `σ`, the check gives this answer and leaves the scopes alone. -/
def Returns (σ : Scopes) (x : Check α) (a : α) : Prop :=
  ∀ ⦃s : CheckState⦄, s.scopes = σ → ∃ s', x s = .ok a s' ∧ s'.scopes = σ

theorem returns_pure (a : α) : Returns σ (pure a : Check α) a :=
  fun s hs => ⟨s, rfl, hs⟩

theorem Returns.bind {f : α → Check β} {b : β} (hx : Returns σ x a) (hf : Returns σ (f a) b) :
    Returns σ (x >>= f) b := by
  intro s hs
  obtain ⟨t, ht, hscopes⟩ := hx hs
  rw [EStateM.bind_of_ok ht]
  exact hf hscopes

theorem Returns.ite_neg {c : Prop} [Decidable c] (hc : ¬c) (h : Returns σ y a) :
    Returns σ (if c then x else y) a := by
  rwa [if_neg hc]

theorem returns_report (problem : TypeProblem) {n : Node} (hn : n.isPlaced = true) :
    Returns σ (report problem n) () := by
  intro s hs
  obtain ⟨⟨⟩, s', hs', hscopes, -⟩ := (ends_report (σ := σ) problem n s hs).1 hn
  exact ⟨s', hs', hscopes⟩

theorem returns_variableType {x t : String} (h : σ.declaredType? i x = some t) :
    Returns σ (variableType i x) t := by
  intro s hs
  subst hs
  rw [Scopes.declaredType?] at h
  rw [variableType, EStateM.bind_of_ok (EStateM.get_apply s)]
  split at h
  · rename_i symbol hx
    rw [hx]
    cases hnone : symbol.isNone with
    | true =>
      rw [hnone] at h
      cases h
    | false =>
      rw [hnone] at h
      cases h
      exact ⟨s, congrArg (EStateM.Result.ok · s) (by rw [hnone]; rfl), rfl⟩
  · cases h

/-! ## Numbers -/

section numbers

variable {e t : String} {l r o n : Node}

theorem ne_of_mem_typeNames (h : t ∈ typeNames) : t ≠ unknownType ∧ t ≠ emptyType := by
  constructor
  · rintro rfl
    exact absurd h (by decide)
  · rintro rfl
    exact absurd h (by decide)

theorem settle_of_accepted (h : e = t ∨ e = unsettledType) : settle e t = (t, true) := by
  rw [settle]
  by_cases heq : e = t
  · rw [if_pos heq, heq]
  · rw [if_neg heq, if_pos (h.resolve_left heq)]

theorem returns_numberOperand (h : e = t ∨ e = unsettledType) (side : Node) (operator : String)
    (problem : String → String → TypeProblem) :
    Returns σ (numberOperand side operator t e problem) (t, true) := by
  unfold numberOperand
  rw [settle_of_accepted h]
  exact returns_pure _

theorem returns_signedNumber (h : e = t ∨ e = unsettledType) (ho : o.isPlaced = true)
    (problem : String → TypeProblem) : Returns σ (signedNumber o t e problem) (t, true) := by
  unfold signedNumber
  rw [settle_of_accepted h]
  exact (returns_report _ ho).bind (returns_pure _)

theorem returns_variableOperand (ht : isNumberType t = true) (n side : Node) (x : String) :
    Returns σ (variableOperand n side x t t) (t, true) := by
  have hname := ne_of_mem_typeNames (mem_typeNames_of_isNumberType ht)
  exact .ite_neg hname.2 (.ite_neg (not_not_intro rfl)
    (.ite_neg (ne_unsettledType_of_isNumberType ht) (returns_pure _)))

theorem returns_nested {inner : String → Check (String × Bool)}
    (h : AcceptedNumber (σ.declaredType? i) e n t) (hinner : Returns σ (inner e) (t, true)) :
    Returns σ (nested inner e) (t, true) := by
  unfold nested
  split
  · rename_i hopen
    exact hopen ▸ hinner
  · rename_i hopen
    have heq := h.eq_of_settled hopen
    subst heq
    exact hinner.bind (returns_pure _)

/-- The checks of a number find it to be of type `t`. -/
structure NumberReturns (σ : Scopes) (i : ScopeId) (e : String) (n : Node) (t : String) : Prop where
  signed : n.isSigned = true → Returns σ (signed i n e) (t, true)
  operation : n.isOperation = true → Returns σ (arithmetic i n e) (t, true)

theorem NumberReturns.of_leaf (hsigned : n.isSigned = false) (hform : n.isOperation = false) :
    NumberReturns σ i e n t :=
  ⟨fun h => absurd (hsigned.symm.trans h) Bool.false_ne_true,
    fun h => absurd (hform.symm.trans h) Bool.false_ne_true⟩

theorem NumberReturns.of_signed {op : Sign}
    (h : Returns σ (Check.signed i (.signed op o) e) (t, true)) :
    NumberReturns σ i e (.signed op o) t :=
  ⟨fun _ => h, fun hform => absurd hform Bool.false_ne_true⟩

theorem NumberReturns.of_arithmetic {op : Arithmetic}
    (h : Returns σ (arithmetic i (.arithmetic op l r) e) (t, true)) :
    NumberReturns σ i e (.arithmetic op l r) t :=
  ⟨fun hform => absurd hform Bool.false_ne_true, fun _ => h⟩

/-- The left side of an operation. -/
theorem returns_leftOperand (h : AcceptedNumber (σ.declaredType? i) e l t)
    (hl : NumberReturns σ i e l t) (n : Node) (operator : String) :
    Returns σ (leftOperand i n operator l (signed i l) (arithmetic i l) e) (t, true) := by
  have hparts := h
  cases h with
  | @literal kind _ _ _ _ hkind ht he =>
    cases kind with
    | int | float => cases hkind; exact returns_numberOperand he _ _ _
    | string | bool => cases hkind; cases ht
    | plain => cases hkind
  | identifier hx ht =>
    have hname := ne_of_mem_typeNames (mem_typeNames_of_isNumberType ht)
    exact (returns_variableType hx).bind (.ite_neg hname.1 (returns_variableOperand ht _ _ _))
  | signed => exact returns_nested hparts (hl.signed rfl)
  | arithmetic | beforeOperation => exact returns_nested hparts (hl.operation rfl)

/-- The right side of an operation, if it is no operation itself. -/
theorem returns_rightOperand (h : AcceptedNumber (σ.declaredType? i) t r t)
    (hr : NumberReturns σ i t r t) (hleaf : r.isOperation = false) (n l : Node)
    (operator : String) :
    Returns σ (rightOperand i n operator r (signed i r) (arithmetic i r) (arithmetic i l) t)
      (t, true) := by
  have hparts := h
  cases h with
  | @literal kind v p _ _ hkind ht he =>
    cases kind with
    | int =>
      cases hkind
      exact returns_numberOperand he (.literal .int v p) operator .integerOperand
    | float =>
      cases hkind
      exact returns_numberOperand he (.literal .float v p) operator .floatOperand
    | string | bool => cases hkind; cases ht
    | plain => cases hkind
  | identifier hx ht =>
    have hname := ne_of_mem_typeNames (mem_typeNames_of_isNumberType ht)
    exact (returns_variableType hx).bind (.ite_neg hname.1 (returns_variableOperand ht _ _ _))
  | signed => exact returns_nested hparts (hr.signed rfl)
  | arithmetic | beforeOperation => cases hleaf

/-- What stands behind a sign. -/
theorem returns_signedOperand (h : AcceptedNumber (σ.declaredType? i) e o t)
    (ho : NumberReturns σ i e o t) (op : Sign) :
    Returns σ (signed i (.signed op o) e) (t, true) := by
  have hparts := h
  rw [signed]
  cases h with
  | @literal kind v p _ _ hkind ht he =>
    cases kind with
    | int =>
      cases hkind
      have hother : Returns σ (signedOther (.signed op (.literal .int v p)) (.literal .int v p)
          "int") () :=
        (returns_pure "integer 64-bits").bind (returns_report _ rfl)
      exact (returns_signedNumber he rfl _).bind (hother.bind (returns_pure _))
    | float => cases hkind; exact returns_signedNumber he rfl _
    | string | bool => cases hkind; cases ht
    | plain => cases hkind
  | identifier hx ht =>
    have hname := ne_of_mem_typeNames (mem_typeNames_of_isNumberType ht)
    refine (returns_variableType hx).bind (.ite_neg hname.1 (.ite_neg hname.2 ?_))
    exact .ite_neg (not_not_intro rfl)
      (.ite_neg (ne_unsettledType_of_isNumberType ht) (returns_pure _))
  | signed => exact returns_nested hparts (ho.signed rfl)
  | arithmetic | beforeOperation => exact returns_nested hparts (ho.operation rfl)

/-- An operation, where the check of the right side finds it to fit. -/
theorem returns_arithmetic (h : AcceptedNumber (σ.declaredType? i) e l t)
    (hl : NumberReturns σ i e l t) (op : Arithmetic)
    (hr : Returns σ (rightOperand i (.arithmetic op l r) op.symbol r (signed i r) (arithmetic i r)
      (arithmetic i l) t) (t, true)) :
    Returns σ (arithmetic i (.arithmetic op l r) e) (t, true) := by
  rw [arithmetic]
  exact (returns_leftOperand h hl _ _).bind (hr.bind (returns_pure _))

/-- The check of an operation to the right of an operator is that of the left side. -/
theorem returns_rightOperation (hr : r.isOperation = true) (ht : isNumberType t = true)
    (hl : Returns σ (arithmetic i l t) (t, true)) (n : Node) (operator : String) :
    Returns σ (rightOperand i n operator r (signed i r) (arithmetic i r) (arithmetic i l) t)
      (t, true) := by
  cases r with
  | arithmetic op a b =>
    exact .ite_neg (ne_unsettledType_of_isNumberType ht) (hl.bind (returns_pure _))
  | _ => cases hr

/-- **All numbers that the rules accept are found to fit.** The type that is found is expected where
the left side of an operation is checked once more, so the statement is about that type too. -/
theorem numberReturns (h : AcceptedNumber (σ.declaredType? i) e n t) :
    NumberReturns σ i e n t ∧ NumberReturns σ i t n t := by
  induction h with
  | literal | identifier => exact ⟨.of_leaf rfl rfl, .of_leaf rfl rfl⟩
  | signed ho ih =>
    exact ⟨.of_signed (returns_signedOperand ho ih.1 _),
      .of_signed (returns_signedOperand ho.again ih.2 _)⟩
  | arithmetic hl hr hleaf ihl ihr =>
    have hright := fun n l operator => returns_rightOperand hr ihr.1 hleaf n l operator
    exact ⟨.of_arithmetic (returns_arithmetic hl ihl.1 _ (hright _ _ _)),
      .of_arithmetic (returns_arithmetic hl.again ihl.2 _ (hright _ _ _))⟩
  | beforeOperation hl hleft hr ih =>
    have hright := fun n operator =>
      returns_rightOperation hr hl.isNumberType (ih.2.operation hleft) n operator
    exact ⟨.of_arithmetic (returns_arithmetic hl ih.1 _ (hright _ _)),
      .of_arithmetic (returns_arithmetic hl.again ih.2 _ (hright _ _))⟩

end numbers

/-! ## Truth values -/

section truths

variable {t operator : String} {family : Family} {l r o n : Node}

/-- The checks of a truth value, each for the kind of node that it is made for, find it to fit. -/
structure TruthReturns (σ : Scopes) (i : ScopeId) (n : Node) : Prop where
  logic : n.isLogic = true → Returns σ (logic i n) true
  comparison : n.isComparison = true → Returns σ (comparison i n) true
  negation : n.isNegation = true → Returns σ (negation i n) true

theorem returns_truthVariable {x : String} (hx : σ.declaredType? i x = some "bool") (side : Node)
    (unknown other : TypeProblem) : Returns σ (truthVariable i side x unknown other) true :=
  (returns_variableType hx).bind (.ite_neg (by decide) (.ite_neg (by decide)
    (.ite_neg (by decide) (returns_pure _))))

/-- One side of an operation with `and` or `or`. -/
theorem returns_logicOperand (h : Accepted (σ.declaredType? i) n "bool")
    (hn : TruthReturns σ i n) (operator : String) (labelled : Node) :
    Returns σ (logicOperand i operator n labelled (truthParts i n)) true := by
  cases h with
  | @literal kind _ _ _ hkind =>
    cases kind with
    | bool => exact returns_pure _
    | int | float | string | plain => exact absurd hkind (by decide)
  | identifier hx => exact returns_truthVariable hx _ _ _
  | signed h | arithmetic h => exact absurd h.isNumberType (by decide)
  | negation => exact hn.negation rfl
  | logic => exact hn.logic rfl
  | comparison => exact hn.comparison rfl

/-- What `not` applies to. -/
theorem returns_negationOperand (h : Accepted (σ.declaredType? i) o "bool")
    (ho : TruthReturns σ i o) (n : Node) :
    Returns σ (negationOperand i n o (truthParts i o)) true := by
  cases h with
  | @literal kind _ _ _ hkind =>
    cases kind with
    | bool => exact returns_pure _
    | int | float | string | plain => exact absurd hkind (by decide)
  | identifier hx => exact returns_truthVariable hx _ _ _
  | signed h | arithmetic h => exact absurd h.isNumberType (by decide)
  | negation => exact ho.negation rfl
  | logic => exact ho.logic rfl
  | comparison => exact ho.comparison rfl

theorem returns_comparedVariable {x : String} (hx : σ.declaredType? i x = some t)
    (ht : t ∈ comparable family) (operator : String) (side : Node) :
    Returns σ (comparedVariable i family operator side x) (some t) := by
  have hname := ne_of_mem_typeNames (mem_typeNames_of_mem_comparable ht)
  refine (returns_variableType hx).bind (.ite_neg hname.1 (.ite_neg hname.2 (.ite_neg ?_ ?_)))
  · simpa using ht
  · exact returns_pure _

/-- Only an equality compares truth values. -/
theorem eq_equality_of_mem (h : "bool" ∈ comparable family) : family = .equality := by
  cases family with
  | equality => rfl
  | _ => exact absurd h (by decide)

/-- A side that is neither a comparison nor made with `not`, `and` or `or` is not compared as a
truth value. -/
theorem truthSide?_of_plain (hcomparison : n.isComparison = false)
    (hnegation : n.isNegation = false) (hlogic : n.isLogic = false) (parts : TruthParts) :
    truthSide? family n parts = none :=
  truthSide?_eq_none (by simp [isTruthSide, hcomparison, hnegation, hlogic]) parts

/-- The left side of a comparison. -/
theorem returns_comparedLeft (h : Accepted (σ.declaredType? i) l t) (ht : t ∈ comparable family)
    (hl : TruthReturns σ i l) (operator : String) :
    Returns σ (comparedLeft i family operator l (truthParts i l)) (some t, true) := by
  unfold comparedLeft
  cases h with
  | literal hkind =>
    rw [truthSide?_of_plain rfl rfl rfl]
    dsimp only
    rw [comparableLiteral?_eq_some.mpr ⟨hkind, ht⟩]
    exact returns_pure _
  | identifier hx =>
    rw [truthSide?_of_plain rfl rfl rfl]
    exact (returns_comparedVariable hx ht operator _).bind (returns_pure _)
  | signed h =>
    rw [truthSide?_of_plain rfl rfl rfl]
    exact ((numberReturns h).1.signed rfl).bind (returns_pure _)
  | arithmetic h =>
    rw [truthSide?_of_plain rfl rfl rfl]
    exact ((numberReturns h).1.operation rfl).bind (returns_pure _)
  | negation =>
    cases eq_equality_of_mem ht
    exact (hl.negation rfl).bind (returns_pure _)
  | logic =>
    cases eq_equality_of_mem ht
    exact (hl.logic rfl).bind (returns_pure _)
  | comparison =>
    cases eq_equality_of_mem ht
    exact (hl.comparison rfl).bind (returns_pure _)

theorem returns_comparedNumber {inner : String → Check (String × Bool)}
    (ht : isNumberType t = true) (h : Returns σ (inner unsettledType) (t, true)) (r : Node)
    (problem : String → String → TypeProblem) :
    Returns σ (comparedNumber t r inner problem) true := by
  have hnumber : t = "int" ∨ t = "float" := by simpa [isNumberType] using ht
  unfold comparedNumber
  rw [if_pos hnumber]
  exact h.bind (.ite_neg (not_not_intro rfl) (returns_pure _))

/-- A truth value on the right side of an equality with another one. -/
theorem returns_equatedTruth (hr : TruthReturns σ i r)
    (hform : r.isComparison = true ∨ r.isNegation = true) (operator : String) (leftFits : Bool)
    (leftLogic : Unit → Check Bool) :
    Returns σ (equatedTruth operator "bool" r leftFits leftLogic (truthParts i r))
      (leftFits, true) := by
  unfold equatedTruth
  cases r with
  | comparison op a b =>
    dsimp only
    rw [if_neg (not_not_intro rfl)]
    exact (hr.comparison rfl).bind (returns_pure _)
  | negation o =>
    dsimp only
    rw [if_neg (not_not_intro rfl)]
    exact (hr.negation rfl).bind (returns_pure _)
  | _ => simp [Node.isComparison, Node.isNegation] at hform

/-- The right side of a comparison whose left side is of type `t`. -/
theorem returns_comparedRight (h : Accepted (σ.declaredType? i) r t) (ht : t ∈ comparable family)
    (hvariable : r.isVariable = false) (hlogic : r.isLogic = false) (hr : TruthReturns σ i r)
    (operator : String) (leftFits : Bool) (leftLogic : Unit → Check Bool) :
    Returns σ (comparedRight i family operator r (some t) leftFits leftLogic (truthParts i r))
      (leftFits, true) := by
  unfold comparedRight
  cases h with
  | @literal kind v p _ hkind =>
    rw [truthSide?_of_plain rfl rfl rfl]
    dsimp only
    rw [comparableLiteral?_eq_some.mpr ⟨hkind, ht⟩]
    have hliteral : Returns σ (comparedLiteral family operator t t (.literal kind v p)) true :=
      .ite_neg (not_not_intro rfl) (returns_pure _)
    exact (returns_pure t).bind (hliteral.bind (returns_pure _))
  | identifier => cases hvariable
  | signed h =>
    rw [truthSide?_of_plain rfl rfl rfl]
    exact (returns_pure t).bind ((returns_comparedNumber h.isNumberType
      ((numberReturns h).1.signed rfl) _ _).bind (returns_pure _))
  | arithmetic h =>
    rw [truthSide?_of_plain rfl rfl rfl]
    exact (returns_pure t).bind ((returns_comparedNumber h.isNumberType
      ((numberReturns h).1.operation rfl) _ _).bind (returns_pure _))
  | negation =>
    cases eq_equality_of_mem ht
    exact (returns_pure "bool").bind (returns_equatedTruth hr (.inr rfl) _ _ _)
  | logic => cases hlogic
  | comparison =>
    cases eq_equality_of_mem ht
    exact (returns_pure "bool").bind (returns_equatedTruth hr (.inl rfl) _ _ _)

/-- **All truth values that the rules accept are found to fit.** -/
theorem truthReturns (h : Accepted (σ.declaredType? i) n t) : TruthReturns σ i n := by
  induction h with
  | literal | identifier | signed | arithmetic =>
    exact ⟨fun hform => absurd hform Bool.false_ne_true,
      fun hform => absurd hform Bool.false_ne_true, fun hform => absurd hform Bool.false_ne_true⟩
  | negation ho ih =>
    refine ⟨fun hform => absurd hform Bool.false_ne_true,
      fun hform => absurd hform Bool.false_ne_true, fun _ => ?_⟩
    rw [negation]
    exact returns_negationOperand ho ih _
  | @logic op l r hl hr ihl ihr =>
    refine ⟨fun _ => ?_, fun hform => absurd hform Bool.false_ne_true,
      fun hform => absurd hform Bool.false_ne_true⟩
    rw [logic]
    exact (returns_logicOperand hl ihl op.symbol l).bind
      ((returns_logicOperand hr ihr op.symbol l).bind (returns_pure _))
  | @comparison op l r t ht hl hr hvariable hlogic ihl ihr =>
    refine ⟨fun hform => absurd hform Bool.false_ne_true, fun _ => ?_,
      fun hform => absurd hform Bool.false_ne_true⟩
    rw [comparison]
    exact (returns_comparedLeft hl ht ihl op.symbol).bind
      ((returns_comparedRight hr ht hvariable hlogic ihr op.symbol true _).bind (returns_pure _))

end truths

/-! ## What is accepted -/

section exactness

variable {s : CheckState} {t : String} {n : Node}

/-- The check of an operation finds exactly what the rules accept. -/
theorem arithmetic_accepts_iff {expected : String} (h : IsExpected expected)
    (hn : n.isOperation = true) :
    (∃ s', arithmetic i n expected s = .ok (t, true) s') ↔
      AcceptedNumber (s.scopes.declaredType? i) expected n t := by
  constructor
  · rintro ⟨s', hs'⟩
    obtain ⟨-, added, -, -, haccepted⟩ := (numberSounds n).operation hn h rfl hs'
    exact haccepted rfl
  · intro haccepted
    obtain ⟨s', hs', -⟩ := (numberReturns haccepted).1.operation hn rfl
    exact ⟨s', hs'⟩

/-- The check of a comparison finds exactly what the rules accept. -/
theorem comparison_accepts_iff (hn : n.isComparison = true) :
    (∃ s', comparison i n s = .ok true s') ↔ Accepted (s.scopes.declaredType? i) n "bool" := by
  constructor
  · rintro ⟨s', hs'⟩
    obtain ⟨-, added, -, haccepted⟩ := (truthSounds n).comparison hn rfl hs'
    exact haccepted rfl
  · intro haccepted
    obtain ⟨s', hs', -⟩ := (truthReturns haccepted).comparison hn rfl
    exact ⟨s', hs'⟩

end exactness

end Scriptlet.Check
