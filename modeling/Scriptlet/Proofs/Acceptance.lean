import Scriptlet.Proofs.CheckedTypes
import Scriptlet.Proofs.Verdicts

/-! # What the checker accepts, exactly

`Vetted` says what can be relied on if the checker has found an expression to fit. The rules of this
module say when it does so: `AcceptedNumber` for what is made of numbers, where a type can be
expected, and `Accepted` for all expressions that stand on a side of a comparison or in a truth
value. They are the rules of a type system, less what the checker refuses although it has a type,
and with what it passes over.

That the checker accepts nothing else is carried through the checks by `Check.Gives`, one statement
for each check. That it accepts all of it goes by induction on the rules, with `Check.Returns`.
-/
namespace Scriptlet

/-- Whether a node has two sides. -/
def Node.hasSides : Node → Bool
  | .arithmetic .. | .comparison .. | .logic .. => true
  | _ => false

/-- Whether the node is a literal or variable of the type, where `Γ` gives types to variables. -/
def Node.isLeafOf (Γ : String → Option String) (t : String) : Node → Bool
  | .literal kind _ _ => kind.typeName? = some t
  | .identifier x _ => Γ x = some t
  | _ => false

/-- With the type `e` expected, or none settled, the number is accepted as one of type `t`. A
variable is accepted only where a type is settled before. An operation to the right of an operator
is not looked at; it is accepted if there is an operation to the left as well. -/
inductive AcceptedNumber (Γ : String → Option String) : String → Node → String → Prop
  | literal {kind : LiteralKind} {v : Value} {p : Pos} {e t : String}
      (hkind : kind.typeName? = some t) (ht : isNumberType t = true)
      (he : e = t ∨ e = Check.unsettledType) : AcceptedNumber Γ e (.literal kind v p) t
  | identifier {x : String} {p : Pos} {t : String} (hx : Γ x = some t)
      (ht : isNumberType t = true) : AcceptedNumber Γ t (.identifier x p) t
  | signed {op : Sign} {o : Node} {e t : String} (ho : AcceptedNumber Γ e o t) :
      AcceptedNumber Γ e (.signed op o) t
  | arithmetic {op : Arithmetic} {l r : Node} {e t : String} (hl : AcceptedNumber Γ e l t)
      (hr : AcceptedNumber Γ t r t) (hleaf : r.isOperation = false) :
      AcceptedNumber Γ e (.arithmetic op l r) t
  | beforeOperation {op : Arithmetic} {l r : Node} {e t : String} (hl : AcceptedNumber Γ e l t)
      (hleft : l.isOperation = true) (hright : r.isOperation = true) :
      AcceptedNumber Γ e (.arithmetic op l r) t

/-- The expression is accepted as one of type `t`. Neither a variable nor `and` and `or` are
accepted to the right of a comparison. -/
inductive Accepted (Γ : String → Option String) : Node → String → Prop
  | literal {kind : LiteralKind} {v : Value} {p : Pos} {t : String}
      (hkind : kind.typeName? = some t) : Accepted Γ (.literal kind v p) t
  | identifier {x : String} {p : Pos} {t : String} (hx : Γ x = some t) (ht : t ∈ typeNames) :
      Accepted Γ (.identifier x p) t
  | signed {op : Sign} {o : Node} {t : String}
      (h : AcceptedNumber Γ Check.unsettledType (.signed op o) t) : Accepted Γ (.signed op o) t
  | arithmetic {op : Arithmetic} {l r : Node} {t : String}
      (h : AcceptedNumber Γ Check.unsettledType (.arithmetic op l r) t) :
      Accepted Γ (.arithmetic op l r) t
  | negation {o : Node} (ho : Accepted Γ o "bool") : Accepted Γ (.negation o) "bool"
  | logic {op : Logic} {l r : Node} (hl : Accepted Γ l "bool") (hr : Accepted Γ r "bool") :
      Accepted Γ (.logic op l r) "bool"
  | comparison {op : Comparison} {l r : Node} {t : String}
      (ht : t ∈ Check.comparable (Check.familyOf op.symbol)) (hl : Accepted Γ l t)
      (hr : Accepted Γ r t) (hvariable : r.isVariable = false) (hlogic : r.isLogic = false) :
      Accepted Γ (.comparison op l r) "bool"

variable {Γ : String → Option String} {e t : String} {n : Node}

namespace AcceptedNumber

theorem isNumberType (h : AcceptedNumber Γ e n t) : isNumberType t = true := by
  induction h with
  | literal _ ht | identifier _ ht => exact ht
  | signed _ ih | arithmetic _ _ _ ih | beforeOperation _ _ _ ih => exact ih

/-- A type that is settled stays. -/
theorem eq_of_settled (h : AcceptedNumber Γ e n t) (he : e ≠ Check.unsettledType) : t = e := by
  induction h with
  | literal _ _ hor => exact (hor.resolve_right he).symm
  | identifier => rfl
  | signed _ ih | arithmetic _ _ _ ih | beforeOperation _ _ _ ih => exact ih he

/-- What is accepted as a number of some type is accepted again where that type is expected. -/
theorem again (h : AcceptedNumber Γ e n t) : AcceptedNumber Γ t n t := by
  induction h with
  | literal hkind ht => exact .literal hkind ht (.inl rfl)
  | identifier hx ht => exact .identifier hx ht
  | signed _ ih => exact .signed ih
  | arithmetic _ hr hleaf ih => exact .arithmetic ih hr hleaf
  | beforeOperation _ hleft hright ih => exact .beforeOperation ih hleft hright

/-- Of what is accepted as a number, only operations have two sides. -/
theorem isOperation (h : AcceptedNumber Γ e n t) (hsides : n.hasSides = true) :
    n.isOperation = true := by
  cases h with
  | arithmetic | beforeOperation => rfl
  | literal | identifier | signed => cases hsides

end AcceptedNumber

theorem Check.ne_unsettledType_of_isNumberType (h : isNumberType t = true) :
    t ≠ unsettledType := by
  rintro rfl
  exact absurd h (by decide)

/-- The types that expressions are accepted with are those of declarations. -/
theorem Accepted.mem_typeNames (h : Accepted Γ n t) : t ∈ typeNames := by
  cases h with
  | @literal kind _ _ _ hkind => cases kind <;> cases hkind <;> decide
  | identifier _ ht => exact ht
  | signed h | arithmetic h => exact mem_typeNames_of_isNumberType h.isNumberType
  | negation | logic | comparison => decide

namespace Check

variable {α β : Type} {σ : Scopes} {i : ScopeId} {x : Check α}

/-! ## Nothing else is accepted -/

section soundness

theorem Meets.gives {always quiet : α → Prop} (h : Meets σ x always quiet) :
    Gives σ x fun a _ => always a := by
  intro s a s' hs hx
  obtain ⟨hs', ⟨added, hadded⟩, ha, -⟩ := h hs hx
  exact ⟨hs', added, hadded.symm, ha⟩

/-- What is known of the type of a variable. -/
def IsSeen (σ : Scopes) (i : ScopeId) (x type : String) : Prop :=
  type = unknownType ∨ type = emptyType ∨ σ.declaredType? i x = some type

theorem gives_isSeen (x : String) : Gives σ (variableType i x) fun type _ => IsSeen σ i x type :=
  (variableType_meets x).gives

/-- A variable with a type of declarations has been declared so. -/
theorem IsSeen.declared {x type : String} (h : IsSeen σ i x type) (htype : type ∈ typeNames) :
    σ.declaredType? i x = some type := by
  rcases h with rfl | rfl | h
  · exact absurd htype (by decide)
  · exact absurd htype (by decide)
  · exact h

/-- The answer about a number: it names a type that can be expected, and the number fits only if it
is accepted with that type. -/
def NumberSound (σ : Scopes) (i : ScopeId) (expected : String) (n : Node) (answer : String × Bool)
    (_ : Bool) : Prop :=
  IsExpected answer.1 ∧
    (answer.2 = true → AcceptedNumber (σ.declaredType? i) expected n answer.1)

variable {expected : String}

theorem numberSound_misfit {n : Node} {quiet : Bool} (h : IsExpected expected) :
    NumberSound σ i expected n (expected, false) quiet :=
  ⟨h, fun hfits => absurd hfits Bool.false_ne_true⟩

/-- A number literal where a type is expected. -/
theorem numberSound_settle (h : IsExpected expected) {kind : LiteralKind} {actual : String}
    (hkind : kind.typeName? = some actual) (hactual : isNumberType actual = true) (v : Value)
    (p : Pos) (quiet : Bool) :
    NumberSound σ i expected (.literal kind v p) (settle expected actual) quiet := by
  obtain ⟨hsettles, htype⟩ := settle_settles h hactual
  refine ⟨hsettles.isExpected, fun hfits => ?_⟩
  have hor := hsettles.eq_or hfits
  rw [htype hfits] at hor ⊢
  exact .literal hkind hactual hor

theorem sound_numberOperand (h : IsExpected expected) {kind : LiteralKind} {actual : String}
    (hkind : kind.typeName? = some actual) (hactual : isNumberType actual = true) (v : Value)
    (p : Pos) (operator : String) (problem : String → String → TypeProblem) :
    Gives σ (numberOperand (.literal kind v p) operator actual expected problem)
      (NumberSound σ i expected (.literal kind v p)) := by
  unfold numberOperand
  have hsettle := numberSound_settle (σ := σ) (i := i) h hkind hactual v p
  generalize settle expected actual = answer at hsettle
  obtain ⟨settled, fits⟩ := answer
  cases fits with
  | true => exact gives_pure (hsettle _)
  | false => exact gives_misfit (hsettle _)

/-- A variable of the expected type. -/
theorem numberSound_variable (h : IsExpected expected) (hopen : expected ≠ unsettledType)
    {x type : String} (htype : IsSeen σ i x type) (heq : ¬type ≠ expected) (p : Pos)
    (quiet : Bool) : NumberSound σ i expected (.identifier x p) (expected, true) quiet := by
  have hnumber : isNumberType expected = true := h.resolve_right hopen
  rw [Decidable.not_not] at heq
  subst heq
  exact ⟨h, fun _ => .identifier (htype.declared (mem_typeNames_of_isNumberType hnumber)) hnumber⟩

theorem sound_variableOperand (h : IsExpected expected) {x type : String}
    (htype : IsSeen σ i x type) (n : Node) (p : Pos) :
    Gives σ (variableOperand n (.identifier x p) x type expected)
      (NumberSound σ i expected (.identifier x p)) := by
  refine .ite (fun _ => gives_misfit (numberSound_misfit h)) fun _ => ?_
  refine .ite (fun _ => gives_lacks _ _) fun heq => ?_
  refine .ite (fun _ => gives_misfit (numberSound_misfit h)) fun hopen => ?_
  exact gives_pure (numberSound_variable h hopen htype heq p _)

/-- A part that settles the type, or has to fit the expected one. -/
theorem sound_nested {n : Node} {inner : String → Check (String × Bool)} (h : IsExpected expected)
    (hinner : Gives σ (inner expected) (NumberSound σ i expected n)) :
    Gives σ (nested inner expected) (NumberSound σ i expected n) := by
  refine .ite (fun hopen => hopen ▸ hinner) fun hopen => ?_
  refine hinner.bind fun answer quiet hanswer => gives_last ⟨h, fun hfits => ?_⟩
  have haccepted := hanswer.2 hfits
  rwa [haccepted.eq_of_settled hopen] at haccepted

/-- What is known of the checks of a node as a number. The check of an operation can be applied to
other nodes too, but only to those with two sides. -/
structure NumberSounds (σ : Scopes) (i : ScopeId) (n : Node) : Prop where
  signed : n.isSigned = true → ∀ {expected : String}, IsExpected expected →
    Gives σ (signed i n expected) (NumberSound σ i expected n)
  operation : n.isOperation = true → ∀ {expected : String}, IsExpected expected →
    Gives σ (arithmetic i n expected) (NumberSound σ i expected n)

/-- The left side of an operation. -/
theorem sound_leftOperand (h : IsExpected expected) (n : Node) (operator : String) {l : Node}
    (hl : NumberSounds σ i l) :
    Gives σ (leftOperand i n operator l (signed i l) (arithmetic i l) expected)
      (NumberSound σ i expected l) := by
  cases l with
  | literal kind v p =>
    cases kind with
    | int | float => exact sound_numberOperand h rfl rfl v p _ _
    | string | bool | plain => exact gives_labelledMisfit (numberSound_misfit h)
  | signed op o => exact sound_nested h (hl.signed rfl h)
  | arithmetic op a b => exact sound_nested h (hl.operation rfl h)
  | empty p => exact gives_misfit (numberSound_misfit h)
  | identifier x p =>
    refine (gives_isSeen x).bind fun type quiet htype => ?_
    refine .ite (fun _ => gives_misfit (numberSound_misfit h)) fun _ => ?_
    exact (sound_variableOperand h htype n p).mono fun _ _ hanswer => hanswer
  | _ => exact gives_labelledMisfit (numberSound_misfit h)

theorem IsExpected.ne_unknownType (h : IsExpected expected) : expected ≠ unknownType := by
  rintro rfl
  exact absurd h (by unfold IsExpected; decide)

theorem gives_hasSides (h : IsExpected expected) (n : Node) :
    Gives σ (arithmetic i n expected) fun _ _ => n.hasSides = true := by
  cases n with
  | arithmetic | comparison | logic =>
    exact ((numberChecks _).again h.ne_unknownType).mono fun _ _ _ => rfl
  | _ => exact gives_lacks _ _

/-- The answer about the right side of an operation whose left side is `l`. -/
def RightSound (σ : Scopes) (i : ScopeId) (expected : String) (l r : Node)
    (answer : String × Bool) (_ : Bool) : Prop :=
  IsExpected answer.1 ∧ (isNumberType expected = true → answer.2 = true → answer.1 = expected ∧
    if r.isOperation then l.hasSides = true
    else AcceptedNumber (σ.declaredType? i) expected r expected)

theorem NumberSound.right {l r : Node} {answer : String × Bool} {quiet : Bool}
    (h : NumberSound σ i expected r answer quiet) (hr : r.isOperation = false) :
    RightSound σ i expected l r answer quiet := by
  refine ⟨h.1, fun hnumber hfits => ?_⟩
  have haccepted := h.2 hfits
  have hsame := haccepted.eq_of_settled (ne_unsettledType_of_isNumberType hnumber)
  rw [hsame] at haccepted
  refine ⟨hsame, ?_⟩
  rw [hr]
  exact haccepted

/-- The right side of an operation. -/
theorem sound_rightOperand (h : IsExpected expected) (n : Node) (operator : String) {l r : Node}
    (hr : NumberSounds σ i r) :
    Gives σ (rightOperand i n operator r (signed i r) (arithmetic i r) (arithmetic i l) expected)
      (RightSound σ i expected l r) := by
  have hmisfit (quiet : Bool) : RightSound σ i expected l r (expected, false) quiet :=
    ⟨h, fun _ hfits => absurd hfits Bool.false_ne_true⟩
  cases r with
  | literal kind v p =>
    cases kind with
    | int | float => exact (sound_numberOperand h rfl rfl v p _ _).mono fun _ _ ha => ha.right rfl
    | string | bool | plain => exact gives_labelledMisfit (hmisfit _)
  | signed op o => exact (sound_nested h (hr.signed rfl h)).mono fun _ _ ha => ha.right rfl
  | arithmetic op a b =>
    refine .ite (fun hopen => ?_) fun hopen => ?_
    · subst hopen
      exact (hr.operation rfl h).mono fun _ _ ha => ⟨ha.1, fun hn => absurd hn (by decide)⟩
    · exact (gives_hasSides h l).bind fun answer quiet hsides =>
        gives_last ⟨h, fun _ _ => ⟨rfl, hsides⟩⟩
  | empty p => exact gives_misfit (hmisfit _)
  | identifier x p =>
    have hvariable {type : String} (htype : IsSeen σ i x type) :
        Gives σ (variableOperand n (.identifier x p) x type expected)
          (RightSound σ i expected l (.identifier x p)) :=
      (sound_variableOperand h htype n p).mono fun _ _ ha => ha.right rfl
    refine (gives_isSeen x).bind fun type quiet htype => ?_
    refine .ite (fun _ => ?_) fun _ => hvariable htype
    exact (gives_report _ _).after_loud fun _ => hvariable htype
  | _ => exact gives_labelledMisfit (hmisfit _)

/-- Both sides of an operation. -/
theorem sound_bothOperands (h : IsExpected expected) (op : Arithmetic) {l r : Node}
    (hl : NumberSounds σ i l) (hr : NumberSounds σ i r) :
    Gives σ (arithmetic i (.arithmetic op l r) expected)
      (NumberSound σ i expected (.arithmetic op l r)) := by
  rw [arithmetic]
  refine (sound_leftOperand h _ op.symbol hl).bind ?_
  rintro ⟨settled, leftFits⟩ quiet ⟨hsettled, hleft⟩
  refine (sound_rightOperand hsettled _ op.symbol hr).bind ?_
  rintro ⟨type, rightFits⟩ quiet' ⟨htype, hright⟩
  refine gives_pure ⟨htype, fun hfits => ?_⟩
  obtain ⟨hleftFits, hrightFits⟩ := Bool.and_eq_true_iff.mp hfits
  have hlaccepted := hleft hleftFits
  obtain ⟨rfl, hraccepted⟩ := hright hlaccepted.isNumberType hrightFits
  cases hform : r.isOperation with
  | true =>
    rw [hform] at hraccepted
    exact .beforeOperation hlaccepted (hlaccepted.isOperation hraccepted) hform
  | false =>
    rw [hform] at hraccepted
    exact .arithmetic hlaccepted hraccepted hform

/-- What stands behind a sign. -/
theorem sound_signedOperand (h : IsExpected expected) (n : Node) {o : Node}
    (ho : NumberSounds σ i o) :
    Gives σ (signedOperand i n o (signed i o) (arithmetic i o) expected)
      (NumberSound σ i expected o) := by
  have hother : Gives σ (do signedOther n o expected; return (expected, false))
      (NumberSound σ i expected o) :=
    (gives_signedOther n o expected).after_loud fun _ => gives_pure (numberSound_misfit h)
  cases o with
  | literal kind v p =>
    cases kind with
    | int =>
      have hnumber : Gives σ (signedNumber (.literal .int v p) "int" expected .signedInteger)
          (NumberSound σ i expected (.literal .int v p)) :=
        gives_misfit (numberSound_settle h rfl rfl v p _)
      refine hnumber.bind fun answer quiet hanswer => ?_
      exact (gives_signedOther _ _ _).after_loud fun _ => gives_pure hanswer
    | float => exact gives_misfit (numberSound_settle h rfl rfl v p _)
    | string | bool | plain => exact hother
  | signed op o => exact sound_nested h (ho.signed rfl h)
  | arithmetic op l r => exact sound_nested h (ho.operation rfl h)
  | empty p => exact gives_labelledMisfit (numberSound_misfit h)
  | identifier x p =>
    refine (gives_isSeen x).bind fun type quiet htype => ?_
    refine .ite (fun _ => gives_lacks _ _) fun _ => ?_
    refine .ite (fun _ => gives_misfit (numberSound_misfit h)) fun _ => ?_
    refine .ite (fun _ => gives_lacks _ _) fun heq => ?_
    refine .ite (fun _ => gives_misfit (numberSound_misfit h)) fun hopen => ?_
    exact gives_pure (numberSound_variable h hopen htype heq p _)
  | _ => exact hother

/-- **Numbers that are found to fit are accepted** by the rules. -/
theorem numberSounds : ∀ n : Node, NumberSounds σ i n
  | .signed op o => by
    refine ⟨fun _ {expected} h => ?_, fun hform => absurd hform Bool.false_ne_true⟩
    rw [signed]
    refine (sound_signedOperand h (.signed op o) (numberSounds o)).mono fun answer _ hanswer => ?_
    exact ⟨hanswer.1, fun hfits => .signed (hanswer.2 hfits)⟩
  | .arithmetic op l r =>
    ⟨fun hform => absurd hform Bool.false_ne_true,
      fun _ {_} h => sound_bothOperands h op (numberSounds l) (numberSounds r)⟩
  | .empty _ | .literal .. | .identifier .. | .negation _ | .logic .. | .comparison ..
  | .assignment .. | .declaration .. | .call .. | .otherwise _ | .conditional .. | .loop ..
  | .block .. | .program .. | .breakLoop | .continueLoop | .bare | .raw _ =>
    ⟨fun hform => absurd hform Bool.false_ne_true, fun hform => absurd hform Bool.false_ne_true⟩

/-! ### Truth values -/

/-- A truth value fits only if it is accepted. -/
def TruthSound (σ : Scopes) (i : ScopeId) (n : Node) (fits _ : Bool) : Prop :=
  fits = true → Accepted (σ.declaredType? i) n "bool"

theorem truthSound_misfit {n : Node} {quiet : Bool} : TruthSound σ i n false quiet :=
  fun hfits => absurd hfits Bool.false_ne_true

theorem sound_truthVariable (x : String) (p : Pos) (unknown other : TypeProblem) :
    Gives σ (truthVariable i (.identifier x p) x unknown other)
      (TruthSound σ i (.identifier x p)) := by
  refine (gives_isSeen x).bind fun type quiet htype => ?_
  refine .ite (fun _ => gives_misfit truthSound_misfit) fun _ => ?_
  refine .ite (fun _ => gives_misfit truthSound_misfit) fun _ => ?_
  refine .ite (fun _ => gives_misfit truthSound_misfit) fun hbool => gives_pure fun _ => ?_
  rw [Decidable.not_not] at hbool
  subst hbool
  exact .identifier (htype.declared (by decide)) (by decide)

/-- What is known of the checks of a node as a truth value, each for the kind of node that it is
made for. -/
structure TruthSounds (σ : Scopes) (i : ScopeId) (n : Node) : Prop where
  logic : n.isLogic = true → Gives σ (logic i n) (TruthSound σ i n)
  comparison : n.isComparison = true → Gives σ (comparison i n) (TruthSound σ i n)
  negation : n.isNegation = true → Gives σ (negation i n) (TruthSound σ i n)

/-- One side of an operation with `and` or `or`. -/
theorem sound_logicOperand (operator : String) (labelled : Node) {n : Node}
    (hn : TruthSounds σ i n) :
    Gives σ (logicOperand i operator n labelled (truthParts i n)) (TruthSound σ i n) := by
  cases n with
  | literal kind v p =>
    cases kind with
    | bool => exact gives_pure fun _ => .literal rfl
    | int | float | string | plain => exact gives_labelledMisfit truthSound_misfit
  | empty p => exact gives_misfit truthSound_misfit
  | identifier x p => exact sound_truthVariable x p _ _
  | logic op l r => exact hn.logic rfl
  | comparison op l r => exact hn.comparison rfl
  | negation o => exact hn.negation rfl
  | _ => exact gives_labelledMisfit truthSound_misfit

/-- What `not` applies to. -/
theorem sound_negationOperand (n : Node) {o : Node} (ho : TruthSounds σ i o) :
    Gives σ (negationOperand i n o (truthParts i o)) (TruthSound σ i o) := by
  cases o with
  | literal kind v p =>
    cases kind with
    | bool => exact gives_pure fun _ => .literal rfl
    | int | float | string | plain => exact gives_labelledMisfit truthSound_misfit
  | empty p => exact gives_labelledMisfit truthSound_misfit
  | identifier x p => exact sound_truthVariable x p _ _
  | logic op l r => exact ho.logic rfl
  | comparison op l r => exact ho.comparison rfl
  | negation o => exact ho.negation rfl
  | _ => exact gives_labelledMisfit truthSound_misfit

/-! ### Comparisons -/

theorem comparableLiteral?_eq_some {family : Family} {kind : LiteralKind} {t : String} :
    comparableLiteral? family kind = some t ↔
      kind.typeName? = some t ∧ t ∈ comparable family := by
  rw [comparableLiteral?, Option.filter_eq_some_iff, List.contains_iff_mem]

/-- The expression can stand on the left side of a comparison, as one of type `t`. -/
def LeftAccepted (σ : Scopes) (i : ScopeId) (family : Family) (n : Node) (t : String) : Prop :=
  t ∈ comparable family ∧ Accepted (σ.declaredType? i) n t

/-- The left side fits only if it is accepted with the type that is answered. -/
def LeftSound (σ : Scopes) (i : ScopeId) (family : Family) (n : Node)
    (answer : Option String × Bool) (_ : Bool) : Prop :=
  answer.2 = true → ∃ t, answer.1 = some t ∧ LeftAccepted σ i family n t

theorem leftSound_misfit {family : Family} {n : Node} {type : Option String} {quiet : Bool} :
    LeftSound σ i family n (type, false) quiet :=
  fun hfits => absurd hfits Bool.false_ne_true

/-- A variable has a type that can be compared, or none. -/
theorem sound_comparedVariable (family : Family) (operator : String) (x : String) (p : Pos) :
    Gives σ (comparedVariable i family operator (.identifier x p) x) fun type _ =>
      ∀ t, type = some t → LeftAccepted σ i family (.identifier x p) t := by
  have hnone (t : String) (h : none = some t) : LeftAccepted σ i family (.identifier x p) t := by
    cases h
  refine (gives_isSeen x).bind fun type quiet htype => ?_
  refine .ite (fun _ => gives_misfit hnone) fun _ => ?_
  refine .ite (fun _ => gives_misfit hnone) fun _ => ?_
  refine .ite (fun _ => gives_misfit hnone) fun hcomparable => gives_pure fun t ht => ?_
  cases ht
  have hmem : type ∈ comparable family := by simpa using hcomparable
  have hname := mem_typeNames_of_mem_comparable hmem
  exact ⟨hmem, .identifier (htype.declared hname) hname⟩

theorem sound_truthSide? {family : Family} {n : Node} {truth : Unit → Check Bool}
    (hn : TruthSounds σ i n) (hside : truthSide? family n (truthParts i n) = some truth) :
    family = .equality ∧ Gives σ (truth ()) (TruthSound σ i n) := by
  rw [truthSide?.eq_def] at hside
  split at hside
  · cases hside
    exact ⟨rfl, hn.comparison rfl⟩
  · cases hside
    exact ⟨rfl, hn.negation rfl⟩
  · cases hside
    exact ⟨rfl, hn.logic rfl⟩
  · cases hside

/-- A number on the left side, which settles the type. -/
theorem sound_settling {family : Family} {n : Node} {inner : String → Check (String × Bool)}
    (h : Gives σ (inner unsettledType) (NumberSound σ i unsettledType n))
    (hn : ∀ t, AcceptedNumber (σ.declaredType? i) unsettledType n t →
      Accepted (σ.declaredType? i) n t) :
    Gives σ (do
      let (type, fits) ← inner unsettledType
      return (some type, fits)) (LeftSound σ i family n) := by
  refine h.bind fun answer quiet hanswer => gives_last fun hfits => ?_
  have haccepted := hanswer.2 hfits
  exact ⟨answer.1, rfl, mem_comparable_of_isNumberType family haccepted.isNumberType,
    hn _ haccepted⟩

/-- The left side of a comparison. -/
theorem sound_comparedLeft (family : Family) (operator : String) {l : Node}
    (hl : TruthSounds σ i l) :
    Gives σ (comparedLeft i family operator l (truthParts i l)) (LeftSound σ i family l) := by
  have hnumber := numberSounds (σ := σ) (i := i) l
  have hinvalid : Gives σ (do return (← invalidSide family operator l, false))
      (LeftSound σ i family l) :=
    (gives_invalidSide _ _ _).after_loud fun _ => gives_pure leftSound_misfit
  unfold comparedLeft
  cases hside : truthSide? family l (truthParts i l) with
  | some truth =>
    obtain ⟨rfl, htruth⟩ := sound_truthSide? hl hside
    exact htruth.bind fun fits quiet hfits =>
      gives_last fun hfit => ⟨"bool", rfl, by decide, hfits hfit⟩
  | none =>
    dsimp only
    cases l with
    | literal kind v p =>
      dsimp only
      cases hkind : comparableLiteral? family kind with
      | none => exact hinvalid
      | some t =>
        obtain ⟨hname, hmem⟩ := comparableLiteral?_eq_some.mp hkind
        exact gives_pure fun _ => ⟨t, rfl, hmem, .literal hname⟩
    | empty p => exact gives_misfit leftSound_misfit
    | identifier x p =>
      refine (sound_comparedVariable family operator x p).bind fun type quiet htype => ?_
      refine gives_last fun hsome => ?_
      obtain ⟨t, rfl⟩ := Option.isSome_iff_exists.mp hsome
      exact ⟨t, rfl, htype t rfl⟩
    | signed op o => exact sound_settling (hnumber.signed rfl (.inr rfl)) fun _ h => .signed h
    | arithmetic op a b =>
      exact sound_settling (hnumber.operation rfl (.inr rfl)) fun _ h => .arithmetic h
    | _ => exact hinvalid

/-- The right side of a comparison fits only if it is accepted with the type of the left side, and
is neither a variable nor `and` or `or`. The left side is then left as it was. -/
def SideSound (σ : Scopes) (i : ScopeId) (n : Node) (leftType : Option String) (leftFits : Bool)
    (answer : Bool × Bool) (_ : Bool) : Prop :=
  answer.2 = true → answer.1 = leftFits ∧ n.isVariable = false ∧ n.isLogic = false ∧
    ∃ t, leftType = some t ∧ Accepted (σ.declaredType? i) n t

theorem sideSound_misfit {n : Node} {leftType : Option String} {leftFits fits quiet : Bool} :
    SideSound σ i n leftType leftFits (fits, false) quiet :=
  fun hfits => absurd hfits Bool.false_ne_true

/-- A right side that decides alone whether it fits, with the type of the left side at hand. -/
theorem sound_settledLeft {n : Node} {leftFits : Bool} (leftType : Option String)
    {truth : String → Check Bool} (hvariable : n.isVariable = false) (hlogic : n.isLogic = false)
    (h : ∀ t, Gives σ (truth t) fun fits _ => fits = true → Accepted (σ.declaredType? i) n t) :
    Gives σ (do return (leftFits, ← truth (← settledLeft leftType)))
      (SideSound σ i n leftType leftFits) := by
  cases leftType with
  | none => exact gives_throw _
  | some t =>
    exact (h t).bind fun fits quiet hfits =>
      gives_last fun hfit => ⟨rfl, hvariable, hlogic, t, rfl, hfits hfit⟩

theorem sound_comparedNumber (leftType : String) (r : Node)
    {inner : String → Check (String × Bool)} (problem : String → String → TypeProblem)
    (h : Gives σ (inner unsettledType) (NumberSound σ i unsettledType r))
    (hr : ∀ t, AcceptedNumber (σ.declaredType? i) unsettledType r t →
      Accepted (σ.declaredType? i) r t) :
    Gives σ (comparedNumber leftType r inner problem) fun fits _ =>
      fits = true → Accepted (σ.declaredType? i) r leftType := by
  refine .ite (fun _ => ?_) fun _ => gives_throw _
  refine h.bind fun answer quiet hanswer => .ite (fun _ => ?_) fun htype => ?_
  · exact gives_misfit fun hfits => absurd hfits Bool.false_ne_true
  · rw [Decidable.not_not] at htype
    subst htype
    exact gives_pure fun hfits => hr _ (hanswer.2 hfits)

/-- A truth value on the right side of an equality. -/
theorem sound_equatedTruth (operator leftType : String) {l r : Node} (leftFits : Bool)
    (hr : TruthSounds σ i r)
    (hform : r.isComparison = true ∨ r.isNegation = true ∨ r.isLogic = true) :
    Gives σ (equatedTruth operator leftType r leftFits (truthParts i l).logic (truthParts i r))
      (SideSound σ i r (some leftType) leftFits) := by
  have hfound {truth : Check Bool} (hleft : ¬leftType ≠ "bool") (hvariable : r.isVariable = false)
      (hlogic : r.isLogic = false) (h : Gives σ truth (TruthSound σ i r)) :
      Gives σ (do return (leftFits, ← truth)) (SideSound σ i r (some leftType) leftFits) := by
    rw [Decidable.not_not] at hleft
    subst hleft
    exact h.bind fun fits quiet hfits =>
      gives_last fun hfit => ⟨rfl, hvariable, hlogic, _, rfl, hfits hfit⟩
  cases r with
  | comparison op a b =>
    exact .ite (fun _ => gives_misfit sideSound_misfit)
      fun hleft => hfound hleft rfl rfl (hr.comparison rfl)
  | negation o =>
    exact .ite (fun _ => gives_misfit sideSound_misfit)
      fun hleft => hfound hleft rfl rfl (hr.negation rfl)
  | logic op a b =>
    -- the left side is checked once more, and whatever comes of it the right one does not fit
    refine .ite (fun _ => ?_) fun _ => gives_misfit sideSound_misfit
    exact (truthTells l).again.bind fun fits quiet _ => gives_pure sideSound_misfit
  | _ => simp [Node.isComparison, Node.isNegation, Node.isLogic] at hform

/-- The right side of a comparison. -/
theorem sound_comparedRight (family : Family) (operator : String) {l r : Node}
    (leftType : Option String) (leftFits : Bool) (hr : TruthSounds σ i r) :
    Gives σ (comparedRight i family operator r leftType leftFits (truthParts i l).logic
      (truthParts i r)) (SideSound σ i r leftType leftFits) := by
  have hnumber := numberSounds (σ := σ) (i := i) r
  have hinvalid : Gives σ (do
      let _ ← invalidSide family operator r
      return (leftFits, false)) (SideSound σ i r leftType leftFits) :=
    (gives_invalidSide _ _ _).after_loud fun _ => gives_pure sideSound_misfit
  unfold comparedRight
  cases hside : truthSide? family r (truthParts i r) with
  | some truth =>
    have hform := (gives_truthSide? (truthTells (σ := σ) r) hside).1
    cases leftType with
    | none => exact gives_throw _
    | some t => exact sound_equatedTruth operator t leftFits hr hform
  | none =>
    dsimp only
    cases r with
    | literal kind v p =>
      dsimp only
      cases hkind : comparableLiteral? family kind with
      | none => exact hinvalid
      | some type =>
        refine sound_settledLeft leftType rfl rfl fun t => .ite (fun _ => ?_) fun htype => ?_
        · exact gives_misfit fun hfits => absurd hfits Bool.false_ne_true
        · rw [Decidable.not_not] at htype
          subst htype
          exact gives_pure fun _ => .literal (comparableLiteral?_eq_some.mp hkind).1
    | empty p => exact gives_misfit sideSound_misfit
    | identifier x p =>
      refine (gives_comparedVariable family operator _ x).bind fun type quiet _ => ?_
      cases type with
      | none => exact gives_pure sideSound_misfit
      | some type =>
        refine gives_settledLeft leftType fun t => .ite (fun _ => ?_) fun _ => ?_
        · exact (gives_throw _).after fun _ => gives_pure sideSound_misfit
        · exact gives_pure sideSound_misfit
    | signed op o =>
      exact sound_settledLeft leftType rfl rfl fun t =>
        sound_comparedNumber t _ _ (hnumber.signed rfl (.inr rfl)) fun _ h => .signed h
    | arithmetic op a b =>
      exact sound_settledLeft leftType rfl rfl fun t =>
        sound_comparedNumber t _ _ (hnumber.operation rfl (.inr rfl)) fun _ h => .arithmetic h
    | _ => exact hinvalid

/-- Both sides of a comparison. -/
theorem sound_comparison (op : Comparison) {l r : Node} (hl : TruthSounds σ i l)
    (hr : TruthSounds σ i r) :
    Gives σ (comparison i (.comparison op l r)) (TruthSound σ i (.comparison op l r)) := by
  rw [comparison]
  refine (sound_comparedLeft (familyOf op.symbol) op.symbol hl).bind ?_
  rintro ⟨leftType, leftFits⟩ quiet hleft
  refine (sound_comparedRight (familyOf op.symbol) op.symbol leftType leftFits hr).bind ?_
  rintro ⟨leftFits', rightFits⟩ quiet' hright
  refine gives_pure fun hfits => ?_
  obtain ⟨hleftFits, hrightFits⟩ := Bool.and_eq_true_iff.mp hfits
  obtain ⟨rfl, hvariable, hlogic, t, rfl, hraccepted⟩ := hright hrightFits
  obtain ⟨t', hsame, hmem, hlaccepted⟩ := hleft hleftFits
  cases hsame
  exact .comparison hmem hlaccepted hraccepted hvariable hlogic

/-- **Truth values that are found to fit are accepted** by the rules. -/
theorem truthSounds : ∀ n : Node, TruthSounds σ i n
  | .logic op l r => by
    refine ⟨fun _ => ?_, fun hform => absurd hform Bool.false_ne_true,
      fun hform => absurd hform Bool.false_ne_true⟩
    rw [logic]
    refine (sound_logicOperand op.symbol l (truthSounds l)).bind fun leftFits quiet hleft => ?_
    refine (sound_logicOperand op.symbol l (truthSounds r)).bind fun rightFits quiet' hright => ?_
    refine gives_pure fun hfits => ?_
    obtain ⟨hleftFits, hrightFits⟩ := Bool.and_eq_true_iff.mp hfits
    exact .logic (hleft hleftFits) (hright hrightFits)
  | .comparison op l r =>
    ⟨fun hform => absurd hform Bool.false_ne_true,
      fun _ => sound_comparison op (truthSounds l) (truthSounds r),
      fun hform => absurd hform Bool.false_ne_true⟩
  | .negation o => by
    refine ⟨fun hform => absurd hform Bool.false_ne_true,
      fun hform => absurd hform Bool.false_ne_true, fun _ => ?_⟩
    rw [negation]
    exact (sound_negationOperand _ (truthSounds o)).mono fun _ _ ho hfits => .negation (ho hfits)
  | .empty _ | .literal .. | .identifier .. | .signed .. | .arithmetic .. | .assignment ..
  | .declaration .. | .call .. | .otherwise _ | .conditional .. | .loop .. | .block ..
  | .program .. | .breakLoop | .continueLoop | .bare | .raw _ =>
    ⟨fun hform => absurd hform Bool.false_ne_true, fun hform => absurd hform Bool.false_ne_true,
      fun hform => absurd hform Bool.false_ne_true⟩

end soundness

end Check

end Scriptlet
