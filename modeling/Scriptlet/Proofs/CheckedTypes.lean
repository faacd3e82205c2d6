import Scriptlet.Proofs.CheckSpec
import Scriptlet.Proofs.TypeRules

/-! # What the checker accepts has a type

An arithmetic expression that the checker finds to fit has the type that it answers with, and a
condition that it has nothing to report about is a truth value, up to the parts that it passes over
(`Vetted`). Each check gets one statement of the form `Check.Meets`; the two recursions over the
tree are at the end of the sections.
-/
namespace Scriptlet.Check

variable {σ : Scopes} {i : ScopeId}

/-! ## Variables -/

/-- The type of a variable is the declared one unless the variable is unknown or empty. -/
theorem variableType_meets (x : String) :
    Meets σ (variableType i x)
      (fun t => t = unknownType ∨ t = emptyType ∨ σ.declaredType? i x = some t)
      (fun _ => True) := by
  intro s t s' hs hx
  subst hs
  rw [variableType, EStateM.bind_of_ok (EStateM.get_apply s)] at hx
  rw [Scopes.declaredType?]
  cases hx? : s.scopes.get? i x with
  | none =>
    rw [hx?] at hx
    cases hx
    exact ⟨rfl, List.prefix_refl _, .inl rfl, fun _ => trivial⟩
  | some v =>
    rw [hx?] at hx
    cases v with
    | symbol symbol =>
      cases hx
      refine ⟨rfl, List.prefix_refl _, .inr ?_, fun _ => trivial⟩
      dsimp only
      cases symbol.isNone with
      | true => exact .inl rfl
      | false => exact .inr rfl
    | absent | noneValue | bool | int | float | complex | str | record => cases hx

/-! ## Numbers -/

/-- A type that can be expected of a number: a number type, or none that is settled. -/
def IsExpected (t : String) : Prop :=
  isNumberType t = true ∨ t = unsettledType

/-- The check found that the number fits. -/
def IsFitting (answer : String × Bool) : Prop :=
  answer.2 = true

/-- The answer names a type that can be expected, and a number type if the number fits: the expected
one, unless none was settled. -/
structure Settles (expected : String) (answer : String × Bool) : Prop where
  isExpected : IsExpected answer.1
  isNumber : IsFitting answer → isNumberType answer.1 = true
  eq_or : IsFitting answer → expected = answer.1 ∨ expected = unsettledType

/-- Besides, the number has the type of the answer if it fits. -/
structure Answers (σ : Scopes) (i : ScopeId) (n : Node) (expected : String)
    (answer : String × Bool) : Prop extends Settles expected answer where
  vetted : IsFitting answer → Vetted (σ.declaredType? i) n answer.1

variable {expected : String}

/-- A number that does not fit leaves the expected type as it is. -/
theorem settles_misfit (h : IsExpected expected) : Settles expected (expected, false) :=
  ⟨h, nofun, nofun⟩

theorem answers_misfit (h : IsExpected expected) (n : Node) :
    Answers σ i n expected (expected, false) :=
  ⟨settles_misfit h, nofun⟩

theorem settle_settles (h : IsExpected expected) {actual : String}
    (hactual : isNumberType actual = true) :
    Settles expected (settle expected actual) ∧
      (IsFitting (settle expected actual) → (settle expected actual).1 = actual) := by
  rw [settle]
  split
  · rename_i heq
    subst heq
    exact ⟨⟨h, fun _ => hactual, fun _ => .inl rfl⟩, fun _ => rfl⟩
  split
  · rename_i hopen
    exact ⟨⟨.inl hactual, fun _ => hactual, fun _ => .inr hopen⟩, fun _ => rfl⟩
  · exact ⟨settles_misfit h, nofun⟩

/-- A number literal on one side of an operation. -/
theorem numberOperand_meets (h : IsExpected expected) {actual : String}
    (hactual : isNumberType actual = true) (side : Node) (operator : String)
    (problem : String → String → TypeProblem)
    (hside : Vetted (σ.declaredType? i) side actual) :
    Meets σ (numberOperand side operator actual expected problem) (Answers σ i side expected)
      IsFitting := by
  obtain ⟨hsettles, htype⟩ := settle_settles h hactual
  have hanswers : Answers σ i side expected (settle expected actual) :=
    ⟨hsettles, fun hfits => (htype hfits).symm ▸ hside⟩
  unfold numberOperand
  generalize settle expected actual = answer at hanswers
  obtain ⟨settled, fits⟩ := answer
  refine .ite (fun _ => .after_report fun _ => meets_pure hanswers trivial) fun hfits => ?_
  exact meets_pure hanswers (show fits = true by simpa using hfits)

/-- A variable of the expected type, where one is settled. -/
theorem variable_answers (h : IsExpected expected) {x type : String}
    (htype : type = unknownType ∨ type = emptyType ∨ σ.declaredType? i x = some type)
    (hsome : type ≠ emptyType) (heq : ¬type ≠ expected) (hopen : expected ≠ unsettledType)
    (p : Pos) : Answers σ i (.identifier x p) expected (expected, true) := by
  have hnumber : isNumberType expected = true := h.resolve_right hopen
  refine ⟨⟨h, fun _ => hnumber, fun _ => .inl rfl⟩, fun _ => ?_⟩
  rw [Decidable.not_not] at heq
  subst heq
  rcases htype with rfl | htype | htype
  · exact absurd hnumber (by decide)
  · exact absurd htype hsome
  · exact .identifier htype (mem_typeNames_of_isNumberType hnumber)

/-- An answer that is given only after a report, and says that the number does not fit. -/
theorem misfit_meets (h : IsExpected expected) (problem : TypeProblem) (side n : Node) :
    Meets σ (do report problem side; return (expected, false)) (Answers σ i n expected)
      IsFitting :=
  .after_report fun _ => meets_pure (answers_misfit h n) trivial

/-- A variable on one side of an operation. -/
theorem variableOperand_meets (h : IsExpected expected) {x type : String}
    (htype : type = unknownType ∨ type = emptyType ∨ σ.declaredType? i x = some type)
    (n : Node) (p : Pos) :
    Meets σ (variableOperand n (.identifier x p) x type expected)
      (Answers σ i (.identifier x p) expected) IsFitting := by
  refine .ite (fun _ => misfit_meets h _ _ _) fun hsome => ?_
  refine .ite (fun _ => meets_ofExcept fun _ => nofun) fun heq => ?_
  refine .ite (fun _ => misfit_meets h _ _ _) fun hopen => ?_
  exact meets_pure (variable_answers h htype hsome heq hopen p) rfl

/-- What a check of the node as a number guarantees, whatever type is expected. -/
def NumberCheck (σ : Scopes) (i : ScopeId) (n : Node) (inner : String → Check (String × Bool)) :
    Prop :=
  ∀ expected, IsExpected expected → Meets σ (inner expected) (Answers σ i n expected) IsFitting

/-- A part that settles the type, or has to fit the expected one. -/
theorem nested_meets (h : IsExpected expected) {n : Node} {inner : String → Check (String × Bool)}
    (hinner : NumberCheck σ i n inner) :
    Meets σ (nested inner expected) (Answers σ i n expected) IsFitting := by
  refine .ite (fun hopen => ?_) fun hopen => ?_
  · subst hopen
    exact hinner unsettledType h
  · refine (hinner expected h).bind fun answer hanswer => meets_pure ?_ fun hfits => hfits
    refine ⟨⟨h, fun _ => h.resolve_right hopen, fun _ => .inl rfl⟩, fun hfits => ?_⟩
    have heq : expected = answer.1 := (hanswer.eq_or hfits).resolve_right hopen
    exact heq ▸ hanswer.vetted hfits

/-- A misfit whose report names a part of a node, which it is a fault not to have. -/
theorem labelledMisfit_meets (h : IsExpected expected) (label : Except Fault String)
    (problem : String → TypeProblem) (side n : Node) :
    Meets σ (do
      let text ← ofExcept label
      report (problem text) side
      return (expected, false)) (Answers σ i n expected) IsFitting := by
  have hlabel : Meets σ (ofExcept label) (fun _ => True) (fun _ => True) :=
    meets_ofExcept fun _ _ => ⟨trivial, trivial⟩
  exact hlabel.bind fun text _ =>
    (misfit_meets h (problem text) side n).mono (fun _ ha => ha) fun _ _ hq _ => hq

/-- The left side of an operation. -/
theorem leftOperand_meets (h : IsExpected expected) (n : Node) (operator : String) {l : Node}
    (hl : l.IsExpression) {signed arithmetic : String → Check (String × Bool)}
    (hsigned : l.isSigned = true → NumberCheck σ i l signed)
    (harithmetic : l.isOperation = true → NumberCheck σ i l arithmetic) :
    Meets σ (leftOperand i n operator l signed arithmetic expected) (Answers σ i l expected)
      IsFitting := by
  cases l with
  | literal kind v p =>
    obtain ⟨t, ht, hv⟩ := hl
    cases kind with
    | int =>
      cases ht
      exact numberOperand_meets h rfl _ operator _ (.literal rfl hv)
    | float =>
      cases ht
      exact numberOperand_meets h rfl _ operator _ (.literal rfl hv)
    | string | bool => exact labelledMisfit_meets h _ _ _ _
    | plain => cases ht
  | signed op o => exact nested_meets h (hsigned rfl)
  | arithmetic op l r => exact nested_meets h (harithmetic rfl)
  | empty p => exact misfit_meets h _ _ _
  | identifier x p =>
    refine (variableType_meets x).bind fun type htype => .ite (fun _ => ?_) fun _ => ?_
    · exact (misfit_meets h _ _ _).mono (fun _ ha => ha) fun _ _ hq _ => hq
    · exact (variableOperand_meets h htype n p).mono (fun _ ha => ha) fun _ _ hq _ => hq
  | negation | logic | comparison => exact labelledMisfit_meets h _ _ _ _
  | _ => cases hl

/-- What is known about the right side of an operation: if it is an operation itself, it has not
been looked at. -/
structure RightAnswers (σ : Scopes) (i : ScopeId) (r : Node) (expected : String)
    (answer : String × Bool) : Prop extends Settles expected answer where
  vetted : IsFitting answer → r.isOperation = true ∨ Vetted (σ.declaredType? i) r answer.1

theorem Meets.right {r : Node} {x : Check (String × Bool)}
    (h : Meets σ x (Answers σ i r expected) IsFitting) :
    Meets σ x (RightAnswers σ i r expected) IsFitting :=
  h.mono (fun _ ha => ⟨ha.toSettles, fun hfits => .inr (ha.vetted hfits)⟩) fun _ _ hq => hq

/-- The right side of an operation. -/
theorem rightOperand_meets (h : IsExpected expected) (n : Node) (operator : String) {r : Node}
    (hr : r.IsExpression) {signed arithmetic arithmeticLeft : String → Check (String × Bool)}
    (hsigned : r.isSigned = true → NumberCheck σ i r signed)
    (harithmetic : r.isOperation = true → NumberCheck σ i r arithmetic)
    (hleft : Meets σ (arithmeticLeft expected) (Settles expected) IsFitting) :
    Meets σ (rightOperand i n operator r signed arithmetic arithmeticLeft expected)
      (RightAnswers σ i r expected) IsFitting := by
  cases r with
  | literal kind v p =>
    obtain ⟨t, ht, hv⟩ := hr
    cases kind with
    | int =>
      cases ht
      exact (numberOperand_meets h rfl _ operator _ (.literal rfl hv)).right
    | float =>
      cases ht
      exact (numberOperand_meets h rfl _ operator _ (.literal rfl hv)).right
    | string | bool => exact (labelledMisfit_meets h _ _ _ _).right
    | plain => cases ht
  | signed op o => exact (nested_meets h (hsigned rfl)).right
  | arithmetic op l r =>
    refine .ite (fun hopen => ?_) fun hopen => ?_
    · subst hopen
      exact (harithmetic rfl unsettledType h).right
    · -- the answer is about the left side: all that it says of the right one is the type
      refine hleft.bind fun answer _ => meets_pure ?_ fun hfits => hfits
      exact ⟨⟨h, fun _ => h.resolve_right hopen, fun _ => .inl rfl⟩, fun _ => .inl rfl⟩
  | empty p => exact (misfit_meets h _ _ _).right
  | identifier x p =>
    refine (variableType_meets x).bind fun type htype => ?_
    have hvariable := (variableOperand_meets h htype n p).right
    refine .ite (fun _ => .after_report fun _ => ?_) fun _ => ?_
    · exact hvariable.mono (fun _ ha => ha) fun _ _ _ => trivial
    · exact hvariable.mono (fun _ ha => ha) fun _ _ hq _ => hq
  | negation | logic | comparison => exact (labelledMisfit_meets h _ _ _ _).right
  | _ => cases hr

/-- What is known about an operation from its two sides. -/
structure SidesAnswer (σ : Scopes) (i : ScopeId) (l r : Node) (expected : String)
    (answer : String × Bool) : Prop extends Settles expected answer where
  left : IsFitting answer → Vetted (σ.declaredType? i) l answer.1
  right : IsFitting answer → r.isOperation = true ∨ Vetted (σ.declaredType? i) r answer.1

/-! ## Signs -/

/-- A number literal behind a sign. -/
theorem signedNumber_meets (h : IsExpected expected) {actual : String}
    (hactual : isNumberType actual = true) {o : Node} (problem : String → TypeProblem)
    (ho : Vetted (σ.declaredType? i) o actual) :
    Meets σ (signedNumber o actual expected problem) (Answers σ i o expected) IsFitting := by
  obtain ⟨hsettles, htype⟩ := settle_settles h hactual
  exact .after_report fun _ =>
    meets_pure ⟨hsettles, fun hfits => (htype hfits).symm ▸ ho⟩ trivial

theorem signedOther_meets (n o : Node) (type : String) :
    Meets σ (signedOther n o type) (fun _ => True) (fun _ => False) := by
  have hlabel : Meets σ (ofExcept o.label) (fun _ => True) (fun _ => True) :=
    meets_ofExcept fun _ _ => ⟨trivial, trivial⟩
  exact hlabel.bind fun text _ =>
    (meets_report _ _).mono (fun _ ha => ha) fun _ _ hq _ => hq

/-- What stands behind a sign. -/
theorem signedOperand_meets (h : IsExpected expected) (n : Node) {o : Node} (ho : o.IsExpression)
    {signed arithmetic : String → Check (String × Bool)}
    (hsigned : o.isSigned = true → NumberCheck σ i o signed)
    (harithmetic : o.isOperation = true → NumberCheck σ i o arithmetic) :
    Meets σ (signedOperand i n o signed arithmetic expected) (Answers σ i o expected)
      IsFitting := by
  have hother : Meets σ (do signedOther n o expected; return (expected, false))
      (Answers σ i o expected) IsFitting :=
    (signedOther_meets n o expected).bind fun _ _ =>
      meets_pure (answers_misfit h o) fun hfalse => hfalse.elim
  cases o with
  | literal kind v p =>
    obtain ⟨t, ht, hv⟩ := ho
    cases kind with
    | int =>
      cases ht
      -- the only literal that is reported twice
      have hliteral : Vetted (σ.declaredType? i) (.literal .int v p) "int" := .literal rfl hv
      refine (signedNumber_meets h rfl _ hliteral).bind fun answer hanswer => ?_
      exact (signedOther_meets _ _ _).bind fun _ _ => meets_pure hanswer fun hfalse => hfalse.elim
    | float =>
      cases ht
      exact signedNumber_meets h rfl _ (.literal rfl hv)
    | string | bool => exact hother
    | plain => cases ht
  | signed op o => exact nested_meets h (hsigned rfl)
  | arithmetic op l r => exact nested_meets h (harithmetic rfl)
  | empty p => exact labelledMisfit_meets h n.operator _ _ _
  | identifier x p =>
    refine (variableType_meets x).bind fun type htype => ?_
    refine .ite (fun _ => meets_ofExcept fun _ => nofun) fun _ => ?_
    refine .ite (fun _ => ?_) fun hsome =>
      .ite (fun _ => meets_ofExcept fun _ => nofun) fun heq => ?_
    · exact (misfit_meets h _ _ _).mono (fun _ ha => ha) fun _ _ hq _ => hq
    · refine .ite (fun _ => ?_) fun hopen => ?_
      · exact (misfit_meets h _ _ _).mono (fun _ ha => ha) fun _ _ hq _ => hq
      · exact meets_pure (variable_answers h htype hsome heq hopen p) fun _ => rfl
  | negation | logic | comparison => exact hother
  | _ => cases ho

/-! ## Operations -/

/-- What the checks of an expression as a number guarantee. The check of an operation can be applied
to comparisons and to `and` and `or` too, and then says less. -/
structure NumberParts (σ : Scopes) (i : ScopeId) (n : Node) : Prop where
  isExpression : n.IsExpression
  signed : n.isSigned = true → NumberCheck σ i n (signed i n)
  arithmetic : n.isOperation = true → NumberCheck σ i n (arithmetic i n)
  again : ∀ expected, IsExpected expected →
    Meets σ (Check.arithmetic i n expected) (Settles expected) IsFitting

/-- Both sides of an operation. -/
theorem bothOperands_meets (h : IsExpected expected) (n : Node) (operator : String) {l r : Node}
    (hl : NumberParts σ i l) (hr : NumberParts σ i r) :
    Meets σ (bothOperands i n operator l r (signed i l) (arithmetic i l) (signed i r)
      (arithmetic i r) expected) (SidesAnswer σ i l r expected) IsFitting := by
  refine (leftOperand_meets h n operator hl.isExpression hl.signed hl.arithmetic).bind ?_
  rintro ⟨settled, leftFits⟩ hleft
  refine (rightOperand_meets hleft.isExpected n operator hr.isExpression hr.signed hr.arithmetic
    (hl.again _ hleft.isExpected)).bind ?_
  rintro ⟨settled', rightFits⟩ hright
  -- if both fit, the left side has settled the type that the right one has to fit
  have hboth : IsFitting (settled', leftFits && rightFits) →
      leftFits = true ∧ rightFits = true ∧ settled = settled' := by
    intro hfits
    obtain ⟨hleftFits, hrightFits⟩ := Bool.and_eq_true_iff.mp hfits
    refine ⟨hleftFits, hrightFits, (hright.eq_or hrightFits).resolve_right ?_⟩
    rintro rfl
    exact absurd (hleft.isNumber hleftFits) (show ¬isNumberType unsettledType = true by decide)
  refine meets_pure ⟨⟨hright.isExpected, fun hfits => ?_, fun hfits => ?_⟩, ?_, ?_⟩ fun hq hq' => ?_
  · exact hright.isNumber (hboth hfits).2.1
  · obtain ⟨hleftFits, -, rfl⟩ := hboth hfits
    exact hleft.eq_or hleftFits
  · intro hfits
    obtain ⟨hleftFits, -, rfl⟩ := hboth hfits
    exact hleft.vetted hleftFits
  · intro hfits
    exact hright.vetted (hboth hfits).2.1
  · exact Bool.and_eq_true_iff.mpr ⟨hq', hq⟩

/-- An operation has the type that its sides have. -/
theorem SidesAnswer.answers {op : Arithmetic} {l r : Node} {answer : String × Bool}
    (h : SidesAnswer σ i l r expected answer) (hop : op.isKnown = true) :
    Answers σ i (.arithmetic op l r) expected answer := by
  refine ⟨h.toSettles, fun hfits => ?_⟩
  rcases h.right hfits with hright | hright
  · exact .beforeOperation hop (h.isNumber hfits) (h.left hfits) hright
  · exact .arithmetic hop (h.isNumber hfits) (h.left hfits) hright

/-- An expression without sides cannot be checked as an operation. -/
theorem arithmetic_meets_of_leaf {n : Node} (h : n.left = n.lacks "left") (expected : String)
    (always quiet : String × Bool → Prop) :
    Meets σ (arithmetic i n expected) always quiet := by
  cases n with
  | arithmetic | comparison | logic => cases h
  | _ => exact meets_ofExcept fun _ => nofun

/-- **The checks of numbers** guarantee the types that they answer with. -/
theorem numberParts : ∀ n : Node, n.IsExpression → NumberParts σ i n
  | .signed op o, h => by
    have ho := numberParts o h.2
    refine ⟨h, fun _ expected hexpected => ?_, nofun, fun _ _ => arithmetic_meets_of_leaf rfl _ _ _⟩
    rw [signed]
    refine (signedOperand_meets hexpected _ h.2 ho.signed ho.arithmetic).mono ?_ fun _ _ hq => hq
    intro answer hanswer
    refine ⟨hanswer.toSettles, fun hfits => ?_⟩
    exact .signed h.1 (hanswer.isNumber hfits) (hanswer.vetted hfits)
  | .arithmetic op l r, h => by
    have hsides := fun expected (hexpected : IsExpected expected) =>
      bothOperands_meets hexpected (.arithmetic op l r) op.symbol (numberParts l h.2.1)
        (numberParts r h.2.2)
    refine ⟨h, nofun, fun _ expected hexpected => ?_, fun expected hexpected => ?_⟩
    · rw [arithmetic]
      exact (hsides expected hexpected).mono (fun _ ha => ha.answers h.1) fun _ _ hq => hq
    · rw [arithmetic]
      exact (hsides expected hexpected).mono (fun _ ha => ha.toSettles) fun _ _ hq => hq
  | .comparison op l r, h => by
    refine ⟨h, nofun, nofun, fun expected hexpected => ?_⟩
    rw [arithmetic]
    exact (bothOperands_meets hexpected _ _ (numberParts l h.2.1) (numberParts r h.2.2)).mono
      (fun _ ha => ha.toSettles) fun _ _ hq => hq
  | .logic op l r, h => by
    refine ⟨h, nofun, nofun, fun expected hexpected => ?_⟩
    rw [arithmetic]
    exact (bothOperands_meets hexpected _ _ (numberParts l h.2.1) (numberParts r h.2.2)).mono
      (fun _ ha => ha.toSettles) fun _ _ hq => hq
  | .empty _, h | .literal .., h | .identifier .., h | .negation _, h =>
    ⟨h, nofun, nofun, fun _ _ => arithmetic_meets_of_leaf rfl _ _ _⟩

/-! ## Truth values -/

/-- The expression is a truth value, as far as the checker looks. -/
def IsTruth (σ : Scopes) (i : ScopeId) (n : Node) : Prop :=
  Vetted (σ.declaredType? i) n "bool"

/-- What the checks of an expression as a truth value guarantee, each for the kind of expression
that it is made for. -/
structure TruthChecks (σ : Scopes) (i : ScopeId) (n : Node) (parts : TruthParts) : Prop where
  isExpression : n.IsExpression
  logic : Meets σ (parts.logic ()) (fun _ => True) (fun _ => n.isLogic = true → IsTruth σ i n)
  comparison : Meets σ (parts.comparison ()) (fun _ => True)
    (fun _ => n.isComparison = true → IsTruth σ i n)
  negation : Meets σ (parts.negation ()) (fun _ => True)
    (fun _ => n.isNegation = true → IsTruth σ i n)

/-- An answer that is given only after a report. -/
theorem refusal_meets {α : Type} (problem : TypeProblem) (side : Node) (answer : α)
    (quiet : α → Prop) :
    Meets σ (do report problem side; return answer) (fun _ => True) quiet :=
  .after_report fun _ => meets_pure trivial trivial

theorem labelledRefusal_meets {α : Type} (label : Except Fault String)
    (problem : String → TypeProblem) (side : Node) (answer : α) (quiet : α → Prop) :
    Meets σ (do
      let text ← ofExcept label
      report (problem text) side
      return answer) (fun _ => True) quiet := by
  have hlabel : Meets σ (ofExcept label) (fun _ => True) (fun _ => True) :=
    meets_ofExcept fun _ _ => ⟨trivial, trivial⟩
  exact hlabel.bind fun text _ => refusal_meets _ _ _ _

/-- A variable as a truth value. -/
theorem truthVariable_meets (x : String) (p : Pos) (unknown other : TypeProblem) :
    Meets σ (truthVariable i (.identifier x p) x unknown other) (fun _ => True)
      (fun _ => IsTruth σ i (.identifier x p)) := by
  refine (variableType_meets x).bind fun type htype => ?_
  refine .ite (fun _ => refusal_meets _ _ _ _) fun hunknown => ?_
  refine .ite (fun _ => refusal_meets _ _ _ _) fun hempty => ?_
  refine .ite (fun _ => refusal_meets _ _ _ _) fun hbool => meets_pure trivial fun _ => ?_
  rw [Decidable.not_not] at hbool
  subst hbool
  exact .identifier ((htype.resolve_left hunknown).resolve_left hempty) (by decide)

/-- One side of an operation with `and` or `or`. -/
theorem logicOperand_meets (operator : String) {side : Node} (labelled : Node)
    {parts : TruthParts} (h : TruthChecks σ i side parts) :
    Meets σ (logicOperand i operator side labelled parts) (fun _ => True)
      (fun _ => IsTruth σ i side) := by
  have hside := h.isExpression
  cases side with
  | literal kind v p =>
    obtain ⟨t, ht, hv⟩ := hside
    cases kind with
    | bool =>
      cases ht
      exact meets_pure trivial (.literal rfl hv)
    | int | float | string => exact labelledRefusal_meets _ _ _ _ _
    | plain => cases ht
  | empty p => exact refusal_meets _ _ _ _
  | identifier x p => exact truthVariable_meets x p _ _
  | logic op l r => exact h.logic.mono (fun _ _ => trivial) fun _ _ hq => hq rfl
  | comparison op l r => exact h.comparison.mono (fun _ _ => trivial) fun _ _ hq => hq rfl
  | negation o => exact h.negation.mono (fun _ _ => trivial) fun _ _ hq => hq rfl
  | signed | arithmetic => exact labelledRefusal_meets _ _ _ _ _
  | _ => cases hside

/-- What `not` applies to. -/
theorem negationOperand_meets (n : Node) {o : Node} {parts : TruthParts}
    (h : TruthChecks σ i o parts) :
    Meets σ (negationOperand i n o parts) (fun _ => True) (fun _ => IsTruth σ i o) := by
  have ho := h.isExpression
  cases o with
  | literal kind v p =>
    obtain ⟨t, ht, hv⟩ := ho
    cases kind with
    | bool =>
      cases ht
      exact meets_pure trivial (.literal rfl hv)
    | int | float | string => exact labelledRefusal_meets _ _ _ _ _
    | plain => cases ht
  | empty p => exact labelledRefusal_meets n.operator _ _ _ _
  | identifier x p => exact truthVariable_meets x p _ _
  | logic op l r => exact h.logic.mono (fun _ _ => trivial) fun _ _ hq => hq rfl
  | comparison op l r => exact h.comparison.mono (fun _ _ => trivial) fun _ _ hq => hq rfl
  | negation o => exact h.negation.mono (fun _ _ => trivial) fun _ _ hq => hq rfl
  | signed | arithmetic => exact labelledRefusal_meets _ _ _ _ _
  | _ => cases ho

/-- Both sides of an operation with `and` or `or`. -/
theorem bothTruths_meets (operator : String) {l r : Node} {left right : TruthParts}
    (hl : TruthChecks σ i l left) (hr : TruthChecks σ i r right) :
    Meets σ (bothTruths i operator l r left right) (fun _ => True)
      (fun _ => IsTruth σ i l ∧ IsTruth σ i r) :=
  (logicOperand_meets operator l hl).bind fun _ _ =>
    (logicOperand_meets operator l hr).bind fun _ _ =>
      meets_pure trivial fun hright hleft => ⟨hleft, hright⟩

/-! ## Comparisons -/

/-- The side of a comparison has the type, which is one of those that can be compared. -/
def IsSide (σ : Scopes) (i : ScopeId) (family : Family) (n : Node) (t : String) : Prop :=
  t ∈ comparable family ∧ Vetted (σ.declaredType? i) n t

theorem mem_comparable_of_isNumberType (family : Family) {t : String}
    (h : isNumberType t = true) : t ∈ comparable family := by
  simp only [isNumberType, Bool.or_eq_true, decide_eq_true_eq] at h
  rcases h with rfl | rfl <;> cases family <;> decide

theorem mem_typeNames_of_mem_comparable {family : Family} {t : String}
    (h : t ∈ comparable family) : t ∈ typeNames := by
  revert t
  cases family <;> decide

theorem invalidSide_meets (family : Family) (operator : String) (side : Node) :
    Meets σ (invalidSide family operator side) (fun _ => True) (fun _ => False) :=
  refusal_meets _ _ _ _

/-- A literal that can be compared. -/
theorem isSide_literal {family : Family} {kind : LiteralKind} {v : Value} {t : String} (p : Pos)
    (h : (Node.literal kind v p).IsExpression) (ht : comparableLiteral? family kind = some t) :
    IsSide σ i family (.literal kind v p) t := by
  obtain ⟨u, hu, hv⟩ := h
  rw [comparableLiteral?, hu, Option.filter_eq_some_iff] at ht
  obtain ⟨⟨⟩, hmem⟩ := ht
  exact ⟨List.contains_iff_mem.mp hmem, .literal hu hv⟩

/-- A variable on one side of a comparison. -/
theorem comparedVariable_meets (family : Family) (operator x : String) (p : Pos) :
    Meets σ (comparedVariable i family operator (.identifier x p) x) (fun _ => True)
      (fun type => ∃ t, type = some t ∧ IsSide σ i family (.identifier x p) t) := by
  refine (variableType_meets x).bind fun type htype => ?_
  refine .ite (fun _ => refusal_meets _ _ _ _) fun hunknown => ?_
  refine .ite (fun _ => refusal_meets _ _ _ _) fun hempty => ?_
  refine .ite (fun _ => refusal_meets _ _ _ _) fun hcomparable => ?_
  have hmem : type ∈ comparable family := by
    simpa using hcomparable
  refine meets_pure trivial fun _ => ⟨type, rfl, hmem, ?_⟩
  exact .identifier ((htype.resolve_left hunknown).resolve_left hempty)
    (mem_typeNames_of_mem_comparable hmem)

/-- A number on the left side of a comparison, which settles the type. -/
theorem settling_meets (family : Family) {n : Node} {inner : String → Check (String × Bool)}
    (h : NumberCheck σ i n inner) :
    Meets σ (do
      let (type, fits) ← inner unsettledType
      return (some type, fits)) (fun _ => True)
      (fun answer => ∃ t, answer.1 = some t ∧ IsSide σ i family n t) := by
  refine (h unsettledType (.inr rfl)).bind fun answer hanswer => meets_pure trivial fun hfits => ?_
  exact ⟨answer.1, rfl, mem_comparable_of_isNumberType family (hanswer.isNumber hfits),
    hanswer.vetted hfits⟩

/-- A truth value on the left side of an equality. -/
theorem truthLeft_meets {l : Node} {truth : Unit → Check Bool}
    (h : Meets σ (truth ()) (fun _ => True) (fun _ => IsTruth σ i l)) :
    Meets σ (do return (some "bool", ← truth ())) (fun _ => True)
      (fun answer => ∃ t, answer.1 = some t ∧ IsSide σ i .equality l t) :=
  h.bind fun _ _ => meets_pure trivial fun hl => ⟨"bool", rfl, by decide, hl⟩

/-- Only an equality has truth values among its sides: comparisons, negations, `and` and `or`. -/
theorem truthSide?_meets {family : Family} {side : Node} {parts : TruthParts}
    {truth : Unit → Check Bool} (h : TruthChecks σ i side parts)
    (hside : truthSide? family side parts = some truth) :
    family = .equality ∧
      (side.isComparison = true ∨ side.isNegation = true ∨ side.isLogic = true) ∧
      Meets σ (truth ()) (fun _ => True) (fun _ => IsTruth σ i side) := by
  rw [truthSide?.eq_def] at hside
  split at hside
  · cases hside
    exact ⟨rfl, .inl rfl, h.comparison.mono (fun _ _ => trivial) fun _ _ hq => hq rfl⟩
  · cases hside
    exact ⟨rfl, .inr (.inl rfl), h.negation.mono (fun _ _ => trivial) fun _ _ hq => hq rfl⟩
  · cases hside
    exact ⟨rfl, .inr (.inr rfl), h.logic.mono (fun _ _ => trivial) fun _ _ hq => hq rfl⟩
  · cases hside

/-- The left side of a comparison settles a type, and has it. -/
theorem comparedLeft_meets (family : Family) (operator : String) {l : Node} {parts : TruthParts}
    (h : TruthChecks σ i l parts) :
    Meets σ (comparedLeft i family operator l parts) (fun _ => True)
      (fun answer => ∃ t, answer.1 = some t ∧ IsSide σ i family l t) := by
  have hl := h.isExpression
  have hnumber := numberParts (σ := σ) (i := i) l hl
  have hinvalid : Meets σ (do return (← invalidSide family operator l, false)) (fun _ => True)
      (fun answer => ∃ t, answer.1 = some t ∧ IsSide σ i family l t) :=
    (invalidSide_meets _ _ _).bind fun _ _ => meets_pure trivial fun hfalse => hfalse.elim
  unfold comparedLeft
  cases hside : truthSide? family l parts with
  | some truth =>
    obtain ⟨rfl, -, htruth⟩ := truthSide?_meets h hside
    exact truthLeft_meets htruth
  | none =>
    dsimp only
    cases l with
    | literal kind v p =>
      dsimp only
      cases hliteral : comparableLiteral? family kind with
      | none => exact hinvalid
      | some t => exact meets_pure trivial ⟨t, rfl, isSide_literal p hl hliteral⟩
    | empty p => exact refusal_meets _ _ _ _
    | identifier x p =>
      exact (comparedVariable_meets family operator x p).bind fun _ _ => meets_pure trivial id
    | signed op o => exact settling_meets family (hnumber.signed rfl)
    | arithmetic op l r => exact settling_meets family (hnumber.arithmetic rfl)
    | comparison | logic | negation => exact hinvalid
    | _ => cases hl

/-- The right side of a comparison has the type of the left one. `and` and `or` to the right of an
equality have not been looked at. -/
def IsRightSide (σ : Scopes) (i : ScopeId) (family : Family) (r : Node) (t : String) : Prop :=
  if family = .equality ∧ r.isLogic = true then t = "bool" else IsSide σ i family r t

/-- A number on the right side of a comparison. -/
theorem comparedNumber_meets (family : Family) (leftType : String) {r : Node}
    {inner : String → Check (String × Bool)} (h : NumberCheck σ i r inner)
    (problem : String → String → TypeProblem) :
    Meets σ (comparedNumber leftType r inner problem) (fun _ => True)
      (fun _ => IsSide σ i family r leftType) := by
  refine .ite (fun _ => ?_) fun _ => meets_throw _
  refine (h unsettledType (.inr rfl)).bind fun answer hanswer => ?_
  refine .ite (fun _ => refusal_meets _ _ _ _) fun heq => meets_pure trivial fun hfits => ?_
  rw [Decidable.not_not] at heq
  subst heq
  exact ⟨mem_comparable_of_isNumberType family (hanswer.isNumber hfits), hanswer.vetted hfits⟩

/-- What follows when the type of the left side is used: it has to be settled. -/
theorem settledLeft_meets {α : Type} {P : String → Prop} (leftType : Option String)
    {rest : String → Check α} (h : ∀ t, Meets σ (rest t) (fun _ => True) (fun _ => P t)) :
    Meets σ (settledLeft leftType >>= rest) (fun _ => True)
      (fun _ => ∀ t, leftType = some t → P t) := by
  cases leftType with
  | none =>
    intro s a s' _ hx
    cases hx
  | some t =>
    refine (h t).mono (fun _ _ => trivial) fun _ _ ht u hu => ?_
    cases hu
    exact ht

theorem isRightSide_of_isSide {family : Family} {r : Node} {t : String}
    (h : IsSide σ i family r t) (hr : r.isLogic = false) : IsRightSide σ i family r t := by
  rw [IsRightSide, if_neg fun hand => Bool.false_ne_true (hr.symm.trans hand.2)]
  exact h

/-- A truth value on the right side of an equality. -/
theorem equatedTruth_meets (operator t : String) {r : Node} (leftFits : Bool)
    {leftLogic : Unit → Check Bool} {parts : TruthParts}
    (hleft : Meets σ (leftLogic ()) (fun _ => True) (fun _ => True)) (h : TruthChecks σ i r parts)
    (hr : r.isComparison = true ∨ r.isNegation = true ∨ r.isLogic = true) :
    Meets σ (equatedTruth operator t r leftFits leftLogic parts) (fun _ => True)
      (fun _ => IsRightSide σ i .equality r t) := by
  have hside : t = "bool" → IsTruth σ i r → IsSide σ i .equality r t := by
    rintro rfl htruth
    exact ⟨by decide, htruth⟩
  cases r with
  | comparison op l r =>
    refine .ite (fun _ => refusal_meets _ _ _ _) fun hbool => h.comparison.bind fun _ _ => ?_
    refine meets_pure trivial fun htruth => isRightSide_of_isSide ?_ rfl
    exact hside (Decidable.not_not.mp hbool) (htruth rfl)
  | negation o =>
    refine .ite (fun _ => refusal_meets _ _ _ _) fun hbool => h.negation.bind fun _ _ => ?_
    refine meets_pure trivial fun htruth => isRightSide_of_isSide ?_ rfl
    exact hside (Decidable.not_not.mp hbool) (htruth rfl)
  | logic op l r =>
    -- it is the left side that is checked, so nothing is learned about this one
    refine .ite (fun hbool => hleft.bind fun _ _ => ?_) fun _ => refusal_meets _ _ _ _
    refine meets_pure trivial fun _ => ?_
    rw [IsRightSide, if_pos ⟨rfl, rfl⟩]
    exact hbool
  | _ => exact (by simp [Node.isComparison, Node.isNegation, Node.isLogic] at hr)

theorem comparedLiteral_meets (family : Family) (operator leftType type : String) (r : Node) :
    Meets σ (comparedLiteral family operator leftType type r) (fun _ => True)
      (fun _ => type = leftType) :=
  .ite (fun _ => refusal_meets _ _ _ _) fun heq =>
    meets_pure trivial (Decidable.not_not.mp heq).symm

/-- A variable on the right side is of the type of the left one. -/
theorem comparedType_meets (leftType : Option String) (type : String) :
    Meets σ (do
      if (← settledLeft leftType) ≠ type then throw (.unassigned "right_type")
      return (true, false)) (fun _ => True) (fun _ => ∀ t, leftType = some t → t = type) := by
  have hthrow : Meets σ (throw (.unassigned "right_type") : Check Unit) (fun _ => True)
      (fun _ => False) := meets_throw _
  refine settledLeft_meets leftType fun t => .ite (fun _ => ?_) fun heq => ?_
  · exact hthrow.bind fun _ _ => meets_pure trivial fun hfalse => hfalse.elim
  · exact meets_pure trivial (Decidable.not_not.mp heq)

/-- The right side of a comparison has the type of the left one. -/
theorem comparedRight_meets (family : Family) (operator : String) {r : Node}
    (leftType : Option String) (leftFits : Bool) {leftLogic : Unit → Check Bool}
    {parts : TruthParts} (hleft : Meets σ (leftLogic ()) (fun _ => True) (fun _ => True))
    (h : TruthChecks σ i r parts) :
    Meets σ (comparedRight i family operator r leftType leftFits leftLogic parts) (fun _ => True)
      (fun _ => ∀ t, leftType = some t → IsRightSide σ i family r t) := by
  have hr := h.isExpression
  have hnumber := numberParts (σ := σ) (i := i) r hr
  have hinvalid : Meets σ (do
      let _ ← invalidSide family operator r
      return (leftFits, false)) (fun _ => True)
      (fun _ => ∀ t, leftType = some t → IsRightSide σ i family r t) :=
    (invalidSide_meets _ _ _).bind fun _ _ => meets_pure trivial fun hfalse => hfalse.elim
  unfold comparedRight
  cases hside : truthSide? family r parts with
  | some truth =>
    obtain ⟨rfl, hform, -⟩ := truthSide?_meets h hside
    exact settledLeft_meets leftType fun t => equatedTruth_meets operator t leftFits hleft h hform
  | none =>
    dsimp only
    cases r with
    | literal kind v p =>
      dsimp only
      cases hliteral : comparableLiteral? family kind with
      | none => exact hinvalid
      | some type =>
        refine settledLeft_meets leftType fun t => ?_
        refine (comparedLiteral_meets _ _ _ _ _).bind fun _ _ => meets_pure trivial fun heq => ?_
        subst heq
        exact isRightSide_of_isSide (isSide_literal p hr hliteral) rfl
    | empty p => exact refusal_meets _ _ _ _
    | identifier x p =>
      refine (comparedVariable_meets family operator x p).bind fun type _ => ?_
      cases type with
      | none => exact meets_pure trivial nofun
      | some type =>
        refine (comparedType_meets leftType type).mono (fun _ _ => trivial) ?_
        rintro _ _ heq ⟨u, ⟨⟩, hside⟩ t ht
        rw [heq t ht]
        exact isRightSide_of_isSide hside rfl
    | signed op o =>
      refine settledLeft_meets leftType fun t => ?_
      refine (comparedNumber_meets family t (hnumber.signed rfl) _).bind fun _ _ => ?_
      exact meets_pure trivial fun hside => isRightSide_of_isSide hside rfl
    | arithmetic op l r =>
      refine settledLeft_meets leftType fun t => ?_
      refine (comparedNumber_meets family t (hnumber.arithmetic rfl) _).bind fun _ _ => ?_
      exact meets_pure trivial fun hside => isRightSide_of_isSide hside rfl
    | comparison | logic | negation => exact hinvalid
    | _ => cases hr

/-- Both sides of a comparison have one type. -/
theorem bothCompared_meets (operator : String) {l r : Node} {left right : TruthParts}
    (hl : TruthChecks σ i l left) (hr : TruthChecks σ i r right) :
    Meets σ (bothCompared i operator l r left right) (fun _ => True)
      (fun _ => ∃ t, IsSide σ i (familyOf operator) l t ∧
        IsRightSide σ i (familyOf operator) r t) := by
  refine (comparedLeft_meets (familyOf operator) operator hl).bind ?_
  rintro ⟨leftType, leftFits⟩ _
  have hagain := hl.logic.mono (fun _ _ => trivial) (fun _ _ _ => trivial)
  refine (comparedRight_meets (familyOf operator) operator leftType leftFits hagain hr).bind ?_
  rintro ⟨leftFits', rightFits⟩ _
  refine meets_pure trivial ?_
  rintro hright ⟨t, ht, hleft⟩
  exact ⟨t, hleft, hright t ht⟩

/-- The family of an operator of the language. -/
theorem familyOf_symbol {op : Comparison} (hop : op.isKnown = true) :
    familyOf op.symbol = if op.isEquality then .equality else .comparison := by
  cases op with
  | other => cases hop
  | _ => decide

/-- A comparison whose sides have one type is a truth value. -/
theorem isTruth_comparison {op : Comparison} (hop : op.isKnown = true) {l r : Node} {t : String}
    (hl : IsSide σ i (familyOf op.symbol) l t) (hr : IsRightSide σ i (familyOf op.symbol) r t) :
    IsTruth σ i (.comparison op l r) := by
  rw [familyOf_symbol hop] at hl hr
  cases heq : op.isEquality with
  | true =>
    rw [heq] at hl hr
    cases hlogic : r.isLogic with
    | true =>
      rw [IsRightSide, hlogic, if_pos ⟨rfl, rfl⟩] at hr
      subst hr
      exact .beforeLogic hop heq hl.2 hlogic
    | false =>
      rw [IsRightSide, hlogic, if_neg fun hand => Bool.false_ne_true hand.2] at hr
      exact .comparison hop (.inl heq) hl.2 hr.2
  | false =>
    rw [heq] at hl hr
    rw [IsRightSide, if_neg (by rintro ⟨⟨⟩, -⟩)] at hr
    refine .comparison hop (.inr ?_) hl.2 hr.2
    -- truth values have no order, and the left side is of a type that has one
    rintro rfl
    exact absurd hl.1 (by decide)

/-- An expression without sides cannot be checked as a comparison or as `and` or `or`. -/
theorem meets_of_leaf {n : Node} (h : n.left = n.lacks "left") (quiet quiet' : Bool → Prop) :
    Meets σ (logic i n) (fun _ => True) quiet ∧
      Meets σ (comparison i n) (fun _ => True) quiet' := by
  cases n with
  | arithmetic | comparison | logic => cases h
  | _ => exact ⟨meets_ofExcept fun _ => nofun, meets_ofExcept fun _ => nofun⟩

/-- An expression that nothing stands before cannot be checked as a negation. -/
theorem negation_meets_of_leaf {n : Node} (h : n.operand = n.lacks "node") (quiet : Bool → Prop) :
    Meets σ (negation i n) (fun _ => True) quiet := by
  cases n with
  | signed | negation => cases h
  | _ => exact meets_ofExcept fun _ => nofun

/-- **The checks of truth values.** An expression of which nothing is reported is a truth value. -/
theorem truthChecks : ∀ n : Node, n.IsExpression →
    TruthChecks σ i n ⟨fun _ => logic i n, fun _ => comparison i n, fun _ => negation i n⟩
  | .logic op l r, h => by
    have hl := truthChecks l h.2.1
    have hr := truthChecks r h.2.2
    refine ⟨h, ?_, ?_, negation_meets_of_leaf rfl _⟩
    · dsimp only
      rw [logic]
      refine (bothTruths_meets op.symbol hl hr).mono (fun _ _ => trivial) ?_
      rintro _ _ ⟨hleft, hright⟩ _
      exact .logic h.1 hleft hright
    · dsimp only
      rw [comparison]
      exact (bothCompared_meets op.symbol hl hr).mono (fun _ _ => trivial) fun _ _ _ => nofun
  | .comparison op l r, h => by
    have hl := truthChecks l h.2.1
    have hr := truthChecks r h.2.2
    refine ⟨h, ?_, ?_, negation_meets_of_leaf rfl _⟩
    · dsimp only
      rw [logic]
      exact (bothTruths_meets op.symbol hl hr).mono (fun _ _ => trivial) fun _ _ _ => nofun
    · dsimp only
      rw [comparison]
      refine (bothCompared_meets op.symbol hl hr).mono (fun _ _ => trivial) ?_
      rintro _ _ ⟨t, hleft, hright⟩ _
      exact isTruth_comparison h.1 hleft hright
  -- the checks can be applied to an operation too, and then guarantee nothing about it
  | .arithmetic op l r, h => by
    have hl := truthChecks l h.2.1
    have hr := truthChecks r h.2.2
    refine ⟨h, ?_, ?_, negation_meets_of_leaf rfl _⟩
    · dsimp only
      rw [logic]
      exact (bothTruths_meets op.symbol hl hr).mono (fun _ _ => trivial) fun _ _ _ => nofun
    · dsimp only
      rw [comparison]
      exact (bothCompared_meets op.symbol hl hr).mono (fun _ _ => trivial) fun _ _ _ => nofun
  | .negation o, h => by
    have ho := truthChecks o h
    refine ⟨h, (meets_of_leaf rfl _ (fun _ => True)).1, (meets_of_leaf rfl (fun _ => True) _).2, ?_⟩
    dsimp only
    rw [negation]
    refine (negationOperand_meets _ ho).mono (fun _ _ => trivial) fun _ _ htruth _ => ?_
    exact .negation htruth
  | .signed op o, h => by
    have ho := truthChecks o h.2
    refine ⟨h, (meets_of_leaf rfl _ (fun _ => True)).1, (meets_of_leaf rfl (fun _ => True) _).2, ?_⟩
    dsimp only
    rw [negation]
    exact (negationOperand_meets _ ho).mono (fun _ _ => trivial) fun _ _ _ => nofun
  | .empty _, h | .literal .., h | .identifier .., h =>
    ⟨h, (meets_of_leaf rfl _ (fun _ => True)).1, (meets_of_leaf rfl (fun _ => True) _).2,
      negation_meets_of_leaf rfl _⟩

/-- **A condition of which nothing is reported is a truth value.** -/
theorem condition_meets {n : Node} (h : n.IsExpression) :
    Meets σ (condition i n) (fun _ => True) (fun _ => IsTruth σ i n) := by
  have hchecks := truthChecks (σ := σ) (i := i) n h
  have hreport : ∀ problem quiet, Meets σ (report problem n) (fun _ => True) quiet :=
    fun problem _ => (meets_report problem n).mono (fun _ _ => trivial) fun _ _ => False.elim
  cases n with
  | literal kind v p =>
    obtain ⟨t, ht, hv⟩ := h
    cases kind with
    | bool =>
      cases ht
      exact meets_pure trivial (.literal rfl hv)
    | int | float | string => exact hreport _ _
    | plain => cases ht
  | identifier x p =>
    refine (variableType_meets x).bind fun type htype => ?_
    refine .ite (fun _ => hreport _ _) fun hunknown => .ite (fun _ => hreport _ _) fun hempty => ?_
    refine .ite (fun hbool => meets_pure trivial fun _ => ?_) fun _ => hreport _ _
    subst hbool
    exact .identifier ((htype.resolve_left hunknown).resolve_left hempty) (by decide)
  | negation o => exact hchecks.negation.bind fun _ _ => meets_pure trivial fun hq => hq rfl
  | logic op l r => exact hchecks.logic.bind fun _ _ => meets_pure trivial fun hq => hq rfl
  | comparison op l r =>
    exact hchecks.comparison.bind fun _ _ => meets_pure trivial fun hq => hq rfl
  | empty | signed | arithmetic => exact hreport _ _
  | _ => cases h

end Scriptlet.Check
