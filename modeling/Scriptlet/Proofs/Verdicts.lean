import Scriptlet.Proofs.CheckSteps

/-! # Verdicts and reports

Whether a declaration is recorded depends on the answer that the check of its initial value gives,
not on what the check reports. The two are to tell the same: a value that does not fit is reported,
and one that is reported does not fit. They do so with two exceptions, both a matter of the form of
the value. A value can be *blamed*: it is reported even if it fits, as is a number literal behind a
sign. And a value can be *barred*: it is never found to fit, as a comparison with a variable on its
right, even if nothing is reported.

`Check.Tells` states how an answer and the reports go together, and `Check.Gives` carries it through
the checks. (`Check.Meets` would not do: it says what holds of an answer given quietly, but not that
an answer is given quietly.) The main statement is about declarations: one whose value is neither
blamed nor barred is reported or recorded, and not both.
-/
namespace Scriptlet

/-- Whether the node is a variable. -/
def Node.isVariable : Node → Bool
  | .identifier .. => true
  | _ => false

/-- Whether the node is a number literal. -/
def Node.isNumberLiteral : Node → Bool
  | .literal .int _ _ | .literal .float _ _ => true
  | _ => false

namespace Check

/-! ## Blamed and barred values -/

section blamed

/-- What holds of a number, where it is known whether it does as an expression with a sign and as an
operation. It does not hold of literals and variables. -/
def ofNumber (n : Node) (sign operation : Bool) : Bool :=
  match n with
  | .signed .. => sign
  | .arithmetic .. => operation
  | _ => false

/-- What holds of the right side of an operation. If a type is settled when an operation is met
there, then the left side is checked `again` in its place. -/
def ofRightNumber (expected : String) (r : Node) (sign operation again : Bool) : Bool :=
  match r with
  | .signed .. => sign
  | .arithmetic .. => if expected = unsettledType then operation else again
  | _ => false

mutual

/-- Whether an expression with a sign is reported even if it fits the expected type. -/
def signBlamed (expected : String) : Node → Bool
  | .signed _ o =>
    o.isNumberLiteral || ofNumber o (signBlamed expected o) (operationBlamed expected o)
  | _ => false

/-- Whether a node, checked as an operation, is reported even if it fits the expected type. -/
def operationBlamed (expected : String) : Node → Bool
  | .arithmetic _ l r | .comparison _ l r | .logic _ l r =>
    let settled := settledAfter expected l
    ofNumber l (signBlamed expected l) (operationBlamed expected l) ||
      ofRightNumber settled r (signBlamed settled r) (operationBlamed settled r)
        (operationBlamed settled l)
  | _ => false

end

/-- Whether a number is reported even if it fits the expected type. -/
def numberBlamed (expected : String) (n : Node) : Bool :=
  ofNumber n (signBlamed expected n) (operationBlamed expected n)

/-- Whether two numbers on the sides of an operation are reported even if they fit. -/
def operandsBlamed (expected : String) (l r : Node) : Bool :=
  let settled := settledAfter expected l
  numberBlamed expected l ||
    ofRightNumber settled r (signBlamed settled r) (operationBlamed settled r)
      (operationBlamed settled l)

/-- Whether a truth value is reported even if it fits. `and` and `or` to the right of a comparison
are not looked at. -/
def truthBlamed : Node → Bool
  | .negation o => truthBlamed o
  | .logic _ l r => truthBlamed l || truthBlamed r
  | .comparison _ l r =>
    (numberBlamed unsettledType l || truthBlamed l) ||
      (!r.isLogic && (numberBlamed unsettledType r || truthBlamed r))
  | _ => false

/-- Whether a truth value is never found to fit: a variable, `and` or `or` stands to the right of a
comparison in it. -/
def truthBarred : Node → Bool
  | .negation o => truthBarred o
  | .logic _ l r => truthBarred l || truthBarred r
  | .comparison _ l r => truthBarred l || (r.isVariable || r.isLogic || truthBarred r)
  | _ => false

/-- Whether an initial value is reported even if it fits the type. -/
def isBlamed (type : String) (v : Node) : Bool :=
  if type = "int" ∨ type = "float" then numberBlamed type v
  else decide (type = "bool") && truthBlamed v

/-- Whether an initial value is never found to fit the type. Of texts none is. -/
def isBarred (type : String) (v : Node) : Bool :=
  if type = "int" ∨ type = "float" then false
  else decide (type ≠ "bool") || truthBarred v

/-- Whether one side of a comparison is reported even if it fits. -/
def sideBlamed (n : Node) : Bool :=
  numberBlamed unsettledType n || truthBlamed n

/-- Whether the right side of a comparison is reported even if it fits. -/
def rightBlamed (r : Node) : Bool :=
  !r.isLogic && sideBlamed r

/-- Whether the right side of a comparison is never found to fit. -/
def rightBarred (r : Node) : Bool :=
  r.isVariable || r.isLogic || truthBarred r

end blamed

/-! ## Answers and reports -/

/-- How an answer goes with the reports: a check that was quiet has looked at a value that is not
blamed, and it fits or is barred; a value that fits is not barred, and the check was quiet or the
value is blamed. -/
def Tells (blamed barred fits quiet : Bool) : Prop :=
  (quiet = true → blamed = false ∧ (fits = true ∨ barred = true)) ∧
    (fits = true → barred = false ∧ (quiet = true ∨ blamed = true))

instance (blamed barred fits quiet : Bool) : Decidable (Tells blamed barred fits quiet) :=
  inferInstanceAs (Decidable (_ ∧ _))

section tells

variable {blamed barred fits quiet blamed' barred' fits' quiet' : Bool}

/-- A refusal with a report is in order in any case. -/
theorem tells_refused : Tells blamed barred false false :=
  ⟨fun h => absurd h Bool.false_ne_true, fun h => absurd h Bool.false_ne_true⟩

theorem tells_accepted : Tells false false true true := by
  decide

theorem tells_blamed : Tells true false fits false := by
  cases fits <;> decide

theorem tells_barred (h : barred = true) : Tells false barred false quiet := by
  subst h
  cases quiet <;> decide

theorem Tells.loud (h : Tells blamed barred fits quiet) (hblamed : blamed = true) :
    quiet = false := by
  cases quiet with
  | true => exact absurd ((h.1 rfl).1.symm.trans hblamed) Bool.false_ne_true
  | false => rfl

theorem Tells.unfit (h : Tells blamed barred fits quiet) (hbarred : barred = true) :
    fits = false := by
  cases fits with
  | true => exact absurd ((h.2 rfl).1.symm.trans hbarred) Bool.false_ne_true
  | false => rfl

/-- Where no exception is made, the check is quiet exactly if the value fits. -/
theorem tells_plain_iff : Tells false false fits quiet ↔ fits = quiet := by
  cases fits <;> cases quiet <;> decide

theorem and_or_or_of_or {p q p' q' : Bool} (h : p = true ∨ q = true) (h' : p' = true ∨ q' = true) :
    (p && p') = true ∨ (q || q') = true := by
  rw [Bool.and_eq_true, Bool.or_eq_true]
  rcases h with hp | hq
  · exact h'.imp (fun hp' => ⟨hp, hp'⟩) .inr
  · exact .inr (.inl hq)

/-- Two values that have to fit both. -/
theorem Tells.and (h : Tells blamed barred fits quiet) (h' : Tells blamed' barred' fits' quiet') :
    Tells (blamed || blamed') (barred || barred') (fits && fits') (quiet && quiet') := by
  constructor
  · intro hquiet
    obtain ⟨hq, hq'⟩ := Bool.and_eq_true_iff.mp hquiet
    obtain ⟨hblamed, hor⟩ := h.1 hq
    obtain ⟨hblamed', hor'⟩ := h'.1 hq'
    exact ⟨by rw [hblamed, hblamed', Bool.or_self], and_or_or_of_or hor hor'⟩
  · intro hfits
    obtain ⟨hf, hf'⟩ := Bool.and_eq_true_iff.mp hfits
    obtain ⟨hbarred, hor⟩ := h.2 hf
    obtain ⟨hbarred', hor'⟩ := h'.2 hf'
    exact ⟨by rw [hbarred, hbarred', Bool.or_self], and_or_or_of_or hor hor'⟩

end tells

section gives

variable {α β : Type} {σ : Scopes} {x y : Check α} {Q : α → Bool → Prop} {R : β → Bool → Prop}

/-- Started with the scopes `σ`, the check leaves them alone and only adds reports; `Q` holds of its
answer and of whether it was quiet. -/
def Gives (σ : Scopes) (x : Check α) (Q : α → Bool → Prop) : Prop :=
  ∀ ⦃s : CheckState⦄ ⦃a : α⦄ ⦃s' : CheckState⦄, s.scopes = σ → x s = .ok a s' →
    s'.scopes = σ ∧ ∃ added, s'.reports = s.reports ++ added ∧ Q a added.isEmpty

theorem Gives.mono {Q' : α → Bool → Prop} (h : Gives σ x Q)
    (hQ : ∀ a quiet, Q a quiet → Q' a quiet) : Gives σ x Q' := by
  intro s a s' hs hx
  obtain ⟨hs', added, hadded, ha⟩ := h hs hx
  exact ⟨hs', added, hadded, hQ a _ ha⟩

theorem gives_pure {a : α} (h : Q a true) : Gives σ (pure a : Check α) Q := by
  intro s b s' hs hx
  obtain ⟨rfl, rfl⟩ := EStateM.pure_eq_ok.mp hx
  exact ⟨hs, [], (List.append_nil _).symm, h⟩

/-- An answer at the end of a sequence. -/
theorem gives_last {a : α} {quiet : Bool} (h : Q a quiet) :
    Gives σ (pure a : Check α) fun b quiet' => Q b (quiet && quiet') :=
  gives_pure (by rwa [Bool.and_true])

theorem gives_throw (f : Fault) : Gives σ (throw f : Check α) Q := by
  intro s a s' _ hx
  cases hx

/-- A sequence is quiet if both of its parts are. -/
theorem Gives.bind {f : α → Check β} (hx : Gives σ x Q)
    (hf : ∀ a quiet, Q a quiet → Gives σ (f a) fun b quiet' => R b (quiet && quiet')) :
    Gives σ (x >>= f) R := by
  intro s b s' hs h
  obtain ⟨a, t, ha, hb⟩ := EStateM.bind_eq_ok.mp h
  obtain ⟨ht, added, hadded, hQ⟩ := hx hs ha
  obtain ⟨hs', added', hadded', hR⟩ := hf a _ hQ ht hb
  refine ⟨hs', added ++ added', by rw [hadded', hadded, List.append_assoc], ?_⟩
  cases added <;> exact hR

/-- What follows on a first step that is always quiet. -/
theorem Gives.after {f : α → Check β} (hx : Gives σ x fun _ quiet => quiet = true)
    (hf : ∀ a, Gives σ (f a) R) : Gives σ (x >>= f) R := by
  refine hx.bind fun a quiet hquiet => ?_
  subst hquiet
  exact hf a

theorem Gives.ite {c : Prop} [Decidable c] (hx : c → Gives σ x Q) (hy : ¬c → Gives σ y Q) :
    Gives σ (if c then x else y) Q := by
  split
  · exact hx ‹_›
  · exact hy ‹_›

theorem gives_ofExcept (e : Except Fault α) :
    Gives σ (ofExcept e) fun _ quiet => quiet = true := by
  cases e with
  | ok a => exact gives_pure rfl
  | error f => exact gives_throw f

/-- A part that is missing is a fault. -/
theorem gives_lacks (n : Node) (field : String) : Gives σ (ofExcept (n.lacks field)) Q :=
  gives_throw _

theorem gives_report (problem : TypeProblem) (n : Node) :
    Gives σ (report problem n) fun _ quiet => quiet = false := by
  refine (gives_ofExcept n.pos).after fun p => ?_
  intro s a s' hs hx
  cases hx
  exact ⟨hs, _, rfl, rfl⟩

/-- What follows on a first step that is never quiet. -/
theorem Gives.after_loud {f : α → Check β} (hx : Gives σ x fun _ quiet => quiet = false)
    (hf : ∀ a, Gives σ (f a) fun b _ => R b false) : Gives σ (x >>= f) R := by
  refine hx.bind fun a quiet hquiet => ?_
  subst hquiet
  exact hf a

/-- A report and then an answer. -/
theorem gives_misfit {problem : TypeProblem} {n : Node} {a : α} (h : Q a false) :
    Gives σ (do report problem n; return a) Q :=
  (gives_report problem n).after_loud fun _ => gives_pure h

/-- A report that names a node or an operator, and then an answer. -/
theorem gives_labelledMisfit {label : Except Fault String} {problem : String → TypeProblem}
    {n : Node} {a : α} (h : Q a false) :
    Gives σ (do
      let text ← ofExcept label
      report (problem text) n
      return a) Q :=
  (gives_ofExcept label).after fun _ => gives_misfit h

theorem gives_variableType (i : ScopeId) (x : String) :
    Gives σ (variableType i x) fun _ quiet => quiet = true := by
  intro s t s' hs hx
  rw [variableType, EStateM.bind_of_ok (EStateM.get_apply s)] at hx
  have hsame : s = s' := by
    cases hx? : s.scopes.get? i x with
    | none => rw [hx?] at hx; exact (EStateM.pure_eq_ok.mp hx).2
    | some v =>
      rw [hx?] at hx
      cases v with
      | symbol symbol => exact (EStateM.pure_eq_ok.mp hx).2
      | _ => cases hx
  subst hsame
  exact ⟨hs, [], (List.append_nil _).symm, rfl⟩

end gives

/-! ## Numbers -/

section numbers

variable {σ : Scopes} {i : ScopeId} {expected : String}

/-- The answer about a number: the type that is settled then, and whether the number fits. -/
def NumberTells (type : String) (blamed : Bool) (answer : String × Bool) (quiet : Bool) : Prop :=
  answer.1 = type ∧ Tells blamed false answer.2 quiet

theorem gives_numberOperand (side : Node) (operator actual : String)
    (problem : String → String → TypeProblem) :
    Gives σ (numberOperand side operator actual expected problem)
      (NumberTells (if expected = unsettledType then actual else expected) false) := by
  unfold numberOperand
  have hsettle := settle_fst expected actual
  generalize settle expected actual = answer at hsettle
  obtain ⟨settled, fits⟩ := answer
  cases fits with
  | true => exact gives_pure ⟨hsettle, tells_accepted⟩
  | false => exact gives_misfit ⟨hsettle, tells_refused⟩

theorem gives_variableOperand (n side : Node) (x type : String) :
    Gives σ (variableOperand n side x type expected) (NumberTells expected false) := by
  refine .ite (fun _ => gives_misfit ⟨rfl, tells_refused⟩) fun _ => ?_
  refine .ite (fun _ => gives_lacks _ _) fun _ => ?_
  refine .ite (fun _ => gives_misfit ⟨rfl, tells_refused⟩) fun _ => ?_
  exact gives_pure ⟨rfl, tells_accepted⟩

/-- A part that settles the type, or has to fit the expected one. -/
theorem gives_nested {n : Node} {blamed : Bool} {inner : String → Check (String × Bool)}
    (h : Gives σ (inner expected) (NumberTells (settledAfter expected n) blamed)) :
    Gives σ (nested inner expected) (NumberTells (settledAfter expected n) blamed) := by
  refine .ite (fun hopen => hopen ▸ h) fun hopen => ?_
  refine h.bind fun answer quiet hanswer => gives_last ?_
  exact ⟨(settledAfter_of_settled hopen n).symm, hanswer.2⟩

/-- The left side of an operation. -/
theorem gives_leftOperand (n : Node) (operator : String) {l : Node}
    {signed arithmetic : String → Check (String × Bool)}
    (hsigned : l.isSigned = true → Gives σ (signed expected)
      (NumberTells (settledAfter expected l) (signBlamed expected l)))
    (harithmetic : l.isOperation = true → Gives σ (arithmetic expected)
      (NumberTells (settledAfter expected l) (operationBlamed expected l))) :
    Gives σ (leftOperand i n operator l signed arithmetic expected)
      (NumberTells (settledAfter expected l) (numberBlamed expected l)) := by
  cases l with
  | literal kind v p =>
    cases kind with
    | int | float => exact gives_numberOperand _ _ _ _
    | string | bool | plain => exact gives_labelledMisfit ⟨rfl, tells_refused⟩
  | signed op o => exact gives_nested (hsigned rfl)
  | arithmetic op l r => exact gives_nested (harithmetic rfl)
  | empty p => exact gives_misfit ⟨rfl, tells_refused⟩
  | identifier x p =>
    refine (gives_variableType i x).after fun type => ?_
    exact .ite (fun _ => gives_misfit ⟨rfl, tells_refused⟩) fun _ => gives_variableOperand _ _ _ _
  | _ => exact gives_labelledMisfit ⟨rfl, tells_refused⟩

/-- The right side of an operation. An unknown variable is reported there before it is found not to
be of the expected type, which is a fault. -/
theorem gives_rightOperand (hexpected : expected ≠ unknownType) (n : Node) (operator : String)
    {r : Node} {again : Bool} {signed arithmetic arithmeticLeft : String → Check (String × Bool)}
    (hsigned : r.isSigned = true → Gives σ (signed expected)
      (NumberTells (settledAfter expected r) (signBlamed expected r)))
    (harithmetic : r.isOperation = true → Gives σ (arithmetic expected)
      (NumberTells (settledAfter expected r) (operationBlamed expected r)))
    (hagain : Gives σ (arithmeticLeft expected) fun answer => Tells again false answer.2) :
    Gives σ (rightOperand i n operator r signed arithmetic arithmeticLeft expected)
      (NumberTells (settledAfter expected r)
        (ofRightNumber expected r (signBlamed expected r) (operationBlamed expected r) again)) := by
  cases r with
  | literal kind v p =>
    cases kind with
    | int | float => exact gives_numberOperand _ _ _ _
    | string | bool | plain => exact gives_labelledMisfit ⟨rfl, tells_refused⟩
  | signed op o => exact gives_nested (hsigned rfl)
  | arithmetic op l r =>
    rw [ofRightNumber]
    refine .ite (fun hopen => ?_) fun hopen => ?_
    · subst hopen
      rw [if_pos rfl]
      exact harithmetic rfl
    · rw [if_neg hopen]
      refine hagain.bind fun answer quiet hanswer => gives_last ?_
      exact ⟨(settledAfter_of_settled hopen _).symm, hanswer⟩
  | empty p => exact gives_misfit ⟨rfl, tells_refused⟩
  | identifier x p =>
    refine (gives_variableType i x).after fun type => ?_
    refine .ite (fun hunknown => (gives_report _ _).after_loud fun _ => ?_)
      fun _ => gives_variableOperand _ _ _ _
    subst hunknown
    rw [variableOperand, if_neg (by decide), if_pos hexpected.symm]
    exact gives_lacks _ _
  | _ => exact gives_labelledMisfit ⟨rfl, tells_refused⟩

/-- A number literal behind a sign is reported, and can fit nevertheless. -/
theorem gives_signedNumber (o : Node) (actual : String) (problem : String → TypeProblem) :
    Gives σ (signedNumber o actual expected problem)
      (NumberTells (if expected = unsettledType then actual else expected) true) := by
  rw [← settle_fst]
  exact gives_misfit ⟨rfl, tells_blamed⟩

theorem gives_signedOther (n o : Node) (type : String) :
    Gives σ (signedOther n o type) fun _ quiet => quiet = false :=
  (gives_ofExcept o.label).after fun _ => gives_report _ _

/-- What stands behind a sign. -/
theorem gives_signedOperand (n : Node) (op : Sign) {o : Node}
    {signed arithmetic : String → Check (String × Bool)}
    (hsigned : o.isSigned = true → Gives σ (signed expected)
      (NumberTells (settledAfter expected o) (signBlamed expected o)))
    (harithmetic : o.isOperation = true → Gives σ (arithmetic expected)
      (NumberTells (settledAfter expected o) (operationBlamed expected o))) :
    Gives σ (signedOperand i n o signed arithmetic expected)
      (NumberTells (settledAfter expected o) (signBlamed expected (.signed op o))) := by
  have hother : Gives σ (do signedOther n o expected; return (expected, false))
      (NumberTells expected false) :=
    (gives_signedOther n o expected).after_loud fun _ => gives_pure ⟨rfl, tells_refused⟩
  rw [signBlamed]
  cases o with
  | literal kind v p =>
    cases kind with
    | int =>
      refine (gives_signedNumber _ _ _).bind fun answer quiet hanswer => ?_
      refine (gives_signedOther _ _ _).after_loud fun _ => gives_pure ?_
      rw [Bool.and_false]
      exact ⟨hanswer.1, tells_blamed⟩
    | float => exact gives_signedNumber _ _ _
    | string | bool | plain => exact hother
  | signed op o => exact gives_nested (hsigned rfl)
  | arithmetic op l r => exact gives_nested (harithmetic rfl)
  | empty p => exact gives_labelledMisfit ⟨rfl, tells_refused⟩
  | identifier x p =>
    refine (gives_variableType i x).after fun type => ?_
    refine .ite (fun _ => gives_lacks _ _) fun _ => ?_
    refine .ite (fun _ => gives_misfit ⟨rfl, tells_refused⟩) fun _ => ?_
    refine .ite (fun _ => gives_lacks _ _) fun _ => ?_
    refine .ite (fun _ => gives_misfit ⟨rfl, tells_refused⟩) fun _ => ?_
    exact gives_pure ⟨rfl, tells_accepted⟩
  | _ => exact hother

theorem settledAfter_ne_unknownType :
    ∀ {expected : String}, expected ≠ unknownType → ∀ n : Node,
      settledAfter expected n ≠ unknownType
  | expected, h, .literal kind _ _ => by
    cases kind with
    | int | float =>
      rw [settledAfter]
      split
      · decide
      · exact h
    | string | bool | plain => exact h
  | _, h, .signed _ o => settledAfter_ne_unknownType h o
  | _, h, .arithmetic _ l r => settledAfter_ne_unknownType (settledAfter_ne_unknownType h l) r
  | _, h, .empty _ | _, h, .identifier .. | _, h, .negation _ | _, h, .logic ..
  | _, h, .comparison .. | _, h, .assignment .. | _, h, .declaration .. | _, h, .call ..
  | _, h, .otherwise _ | _, h, .conditional .. | _, h, .loop .. | _, h, .block ..
  | _, h, .program .. | _, h, .breakLoop | _, h, .continueLoop | _, h, .bare | _, h, .raw _ => h

/-- What the checks of a node as a number tell. The check of an operation can be applied to other
nodes too. -/
structure NumberChecks (σ : Scopes) (i : ScopeId) (n : Node) : Prop where
  signed : n.isSigned = true → ∀ {expected : String}, expected ≠ unknownType →
    Gives σ (signed i n expected)
      (NumberTells (settledAfter expected n) (signBlamed expected n))
  operation : n.isOperation = true → ∀ {expected : String}, expected ≠ unknownType →
    Gives σ (arithmetic i n expected)
      (NumberTells (settledAfter expected n) (operationBlamed expected n))
  again : ∀ {expected : String}, expected ≠ unknownType →
    Gives σ (arithmetic i n expected) fun answer =>
      Tells (operationBlamed expected n) false answer.2

/-- Both sides of an operation. -/
theorem gives_bothOperands (h : expected ≠ unknownType) (n : Node) (operator : String)
    {l r : Node} (hl : NumberChecks σ i l) (hr : NumberChecks σ i r) :
    Gives σ (bothOperands i n operator l r (signed i l) (arithmetic i l) (signed i r)
      (arithmetic i r) expected)
      (NumberTells (settledAfter (settledAfter expected l) r) (operandsBlamed expected l r)) := by
  have hsettled := settledAfter_ne_unknownType h l
  refine (gives_leftOperand n operator (fun hform => hl.signed hform h)
    fun hform => hl.operation hform h).bind ?_
  rintro ⟨settled, leftFits⟩ quiet ⟨rfl, hleft⟩
  refine (gives_rightOperand hsettled n operator (fun hform => hr.signed hform hsettled)
    (fun hform => hr.operation hform hsettled) (hl.again hsettled)).bind ?_
  rintro ⟨settled, rightFits⟩ quiet' ⟨rfl, hright⟩
  refine gives_pure ⟨rfl, ?_⟩
  rw [Bool.and_true]
  exact hleft.and hright

theorem gives_arithmetic_of_leaf {n : Node} (h : n.left = n.lacks "left")
    {Q : String × Bool → Bool → Prop} : Gives σ (arithmetic i n expected) Q := by
  cases n with
  | arithmetic | comparison | logic => cases h
  | _ => exact gives_lacks _ _

/-- **The checks of numbers** report what does not fit, and besides that only what is blamed. -/
theorem numberChecks : ∀ n : Node, NumberChecks σ i n
  | .signed op o => by
    have ho := numberChecks o
    refine ⟨fun _ {expected} h => ?_, fun hform => absurd hform Bool.false_ne_true,
      fun _ => gives_arithmetic_of_leaf rfl⟩
    rw [signed]
    exact gives_signedOperand _ op (fun hform => ho.signed hform h)
      fun hform => ho.operation hform h
  | .arithmetic op l r => by
    have hboth := fun {expected : String} (h : expected ≠ unknownType) =>
      gives_bothOperands h (.arithmetic op l r) op.symbol (numberChecks l) (numberChecks r)
    refine ⟨fun hform => absurd hform Bool.false_ne_true, fun _ {expected} h => ?_,
      fun {expected} h => ?_⟩
    · rw [arithmetic, operationBlamed]
      exact hboth h
    · rw [arithmetic, operationBlamed]
      exact (hboth h).mono fun _ _ hanswer => hanswer.2
  | .comparison _ l r | .logic _ l r => by
    refine ⟨fun hform => absurd hform Bool.false_ne_true,
      fun hform => absurd hform Bool.false_ne_true, fun {expected} h => ?_⟩
    rw [arithmetic, operationBlamed]
    exact (gives_bothOperands h _ _ (numberChecks l) (numberChecks r)).mono
      fun _ _ hanswer => hanswer.2
  | .empty _ | .literal .. | .identifier .. | .negation _ | .assignment .. | .declaration ..
  | .call .. | .otherwise _ | .conditional .. | .loop .. | .block .. | .program .. | .breakLoop
  | .continueLoop | .bare | .raw _ =>
    ⟨fun hform => absurd hform Bool.false_ne_true, fun hform => absurd hform Bool.false_ne_true,
      fun _ => gives_arithmetic_of_leaf rfl⟩

end numbers

/-! ## Truth values -/

section truths

variable {σ : Scopes} {i : ScopeId}

/-- What the checks of a node as a truth value tell, each for the kind of node that it is made for.
The first can be applied to other nodes too. -/
structure TruthTells (σ : Scopes) (n : Node) (parts : TruthParts) : Prop where
  logic : n.isLogic = true →
    Gives σ (parts.logic ()) (Tells (truthBlamed n) (truthBarred n))
  comparison : n.isComparison = true →
    Gives σ (parts.comparison ()) (Tells (truthBlamed n) (truthBarred n))
  negation : n.isNegation = true →
    Gives σ (parts.negation ()) (Tells (truthBlamed n) (truthBarred n))
  again : Gives σ (parts.logic ()) fun _ _ => True

theorem gives_truthVariable (side : Node) (x : String) (unknown other : TypeProblem) :
    Gives σ (truthVariable i side x unknown other) (Tells false false) := by
  refine (gives_variableType i x).after fun type => ?_
  refine .ite (fun _ => gives_misfit tells_refused) fun _ => ?_
  refine .ite (fun _ => gives_misfit tells_refused) fun _ => ?_
  exact .ite (fun _ => gives_misfit tells_refused) fun _ => gives_pure tells_accepted

/-- One side of an operation with `and` or `or`. -/
theorem gives_logicOperand (operator : String) {side : Node} (labelled : Node) {parts : TruthParts}
    (h : TruthTells σ side parts) :
    Gives σ (logicOperand i operator side labelled parts)
      (Tells (truthBlamed side) (truthBarred side)) := by
  cases side with
  | literal kind v p =>
    cases kind with
    | bool => exact gives_pure tells_accepted
    | int | float | string | plain => exact gives_labelledMisfit tells_refused
  | empty p => exact gives_misfit tells_refused
  | identifier x p => exact gives_truthVariable _ _ _ _
  | logic op l r => exact h.logic rfl
  | comparison op l r => exact h.comparison rfl
  | negation o => exact h.negation rfl
  | _ => exact gives_labelledMisfit tells_refused

/-- What `not` applies to. -/
theorem gives_negationOperand (n : Node) {o : Node} {parts : TruthParts}
    (h : TruthTells σ o parts) :
    Gives σ (negationOperand i n o parts) (Tells (truthBlamed o) (truthBarred o)) := by
  cases o with
  | literal kind v p =>
    cases kind with
    | bool => exact gives_pure tells_accepted
    | int | float | string | plain => exact gives_labelledMisfit tells_refused
  | empty p => exact gives_labelledMisfit tells_refused
  | identifier x p => exact gives_truthVariable _ _ _ _
  | logic op l r => exact h.logic rfl
  | comparison op l r => exact h.comparison rfl
  | negation o => exact h.negation rfl
  | _ => exact gives_labelledMisfit tells_refused

/-- Both sides of an operation with `and` or `or`. -/
theorem gives_bothTruths (operator : String) {l r : Node} {left right : TruthParts}
    (hl : TruthTells σ l left) (hr : TruthTells σ r right) :
    Gives σ (bothTruths i operator l r left right)
      (Tells (truthBlamed l || truthBlamed r) (truthBarred l || truthBarred r)) := by
  refine (gives_logicOperand operator l hl).bind fun leftFits quiet hleft => ?_
  refine (gives_logicOperand operator l hr).bind fun rightFits quiet' hright => gives_pure ?_
  rw [Bool.and_true]
  exact hleft.and hright

/-! ## Comparisons -/

theorem gives_invalidSide (family : Family) (operator : String) (side : Node) :
    Gives σ (invalidSide family operator side) fun _ quiet => quiet = false :=
  gives_misfit rfl

/-- A variable can be compared, or it is reported. -/
theorem gives_comparedVariable (family : Family) (operator : String) (side : Node) (x : String) :
    Gives σ (comparedVariable i family operator side x) fun type quiet => type.isSome = quiet := by
  refine (gives_variableType i x).after fun type => ?_
  refine .ite (fun _ => gives_misfit rfl) fun _ => ?_
  refine .ite (fun _ => gives_misfit rfl) fun _ => ?_
  exact .ite (fun _ => gives_misfit rfl) fun _ => gives_pure rfl

/-- A truth value among the sides of an equality is a comparison, a negation, `and` or `or`. -/
theorem gives_truthSide? {family : Family} {side : Node} {parts : TruthParts}
    {truth : Unit → Check Bool} (h : TruthTells σ side parts)
    (hside : truthSide? family side parts = some truth) :
    (side.isComparison = true ∨ side.isNegation = true ∨ side.isLogic = true) ∧
      Gives σ (truth ()) (Tells (truthBlamed side) (truthBarred side)) := by
  rw [truthSide?.eq_def] at hside
  split at hside
  · cases hside
    exact ⟨.inl rfl, h.comparison rfl⟩
  · cases hside
    exact ⟨.inr (.inl rfl), h.negation rfl⟩
  · cases hside
    exact ⟨.inr (.inr rfl), h.logic rfl⟩
  · cases hside

theorem sideBlamed_of_truth {n : Node}
    (h : n.isComparison = true ∨ n.isNegation = true ∨ n.isLogic = true) :
    sideBlamed n = truthBlamed n := by
  cases n with
  | comparison | negation | logic => rfl
  | _ => simp [Node.isComparison, Node.isNegation, Node.isLogic] at h

theorem sideBlamed_signed (op : Sign) (o : Node) :
    sideBlamed (.signed op o) = signBlamed unsettledType (.signed op o) :=
  Bool.or_false _

theorem sideBlamed_arithmetic (op : Arithmetic) (l r : Node) :
    sideBlamed (.arithmetic op l r) = operationBlamed unsettledType (.arithmetic op l r) :=
  Bool.or_false _

theorem unsettledType_ne_unknownType : unsettledType ≠ unknownType := by
  decide

/-- A number on the left side of a comparison, which settles the type. -/
theorem gives_settling {n : Node} {blamed : Bool} {inner : String → Check (String × Bool)}
    (h : Gives σ (inner unsettledType)
      (NumberTells (settledAfter unsettledType n) blamed)) :
    Gives σ (do
      let (type, fits) ← inner unsettledType
      return (some type, fits)) fun answer => Tells blamed false answer.2 := by
  exact h.bind fun answer quiet hanswer => gives_last hanswer.2

/-- The left side of a comparison. -/
theorem gives_comparedLeft (family : Family) (operator : String) {l : Node} {parts : TruthParts}
    (h : TruthTells σ l parts) :
    Gives σ (comparedLeft i family operator l parts) fun answer =>
      Tells (sideBlamed l) (truthBarred l) answer.2 := by
  have hnumber := numberChecks (σ := σ) (i := i) l
  have hinvalid : Gives σ (do return (← invalidSide family operator l, false)) fun answer =>
      Tells (sideBlamed l) (truthBarred l) answer.2 :=
    (gives_invalidSide _ _ _).after_loud fun _ => gives_pure tells_refused
  unfold comparedLeft
  cases hside : truthSide? family l parts with
  | some truth =>
    obtain ⟨hform, htruth⟩ := gives_truthSide? h hside
    rw [sideBlamed_of_truth hform]
    exact htruth.bind fun fits quiet hfits => gives_last hfits
  | none =>
    dsimp only
    cases l with
    | literal kind v p =>
      dsimp only
      cases comparableLiteral? family kind with
      | none => exact hinvalid
      | some t => exact gives_pure tells_accepted
    | empty p => exact gives_misfit tells_refused
    | identifier x p =>
      exact (gives_comparedVariable family operator _ x).bind fun type quiet htype =>
        gives_last (tells_plain_iff.mpr htype)
    | signed op o =>
      rw [sideBlamed_signed]
      exact gives_settling (hnumber.signed rfl unsettledType_ne_unknownType)
    | arithmetic op l r =>
      rw [sideBlamed_arithmetic]
      exact gives_settling (hnumber.operation rfl unsettledType_ne_unknownType)
    | _ => exact hinvalid

/-- A number on the right side of a comparison. -/
theorem gives_comparedNumber (leftType : String) (r : Node) {type : String} {blamed : Bool}
    {inner : String → Check (String × Bool)} (problem : String → String → TypeProblem)
    (h : Gives σ (inner unsettledType) (NumberTells type blamed)) :
    Gives σ (comparedNumber leftType r inner problem) (Tells blamed false) := by
  refine .ite (fun _ => ?_) fun _ => gives_throw _
  refine h.bind fun answer quiet hanswer => .ite (fun _ => gives_misfit ?_) fun _ => ?_
  · rw [Bool.and_false]
    exact tells_refused
  · exact gives_last hanswer.2

/-- The answer about the right side of a comparison: whether the left side and the right side fit.
If the right side does, the left side is left as it was. -/
def RightTells (leftFits blamed barred : Bool) (answer : Bool × Bool) (quiet : Bool) : Prop :=
  (answer.2 = true → answer.1 = leftFits) ∧ Tells blamed barred answer.2 quiet

theorem rightTells_refused {leftFits fits blamed barred : Bool} :
    RightTells leftFits blamed barred (fits, false) false :=
  ⟨fun h => absurd h Bool.false_ne_true, tells_refused⟩

theorem rightTells_barred {leftFits fits barred quiet : Bool} (h : barred = true) :
    RightTells leftFits false barred (fits, false) quiet :=
  ⟨fun hfits => absurd hfits Bool.false_ne_true, tells_barred h⟩

/-- A right side that is checked with the type of the left one. -/
theorem gives_settledLeft {α : Type} {Q : α → Bool → Prop} (leftType : Option String)
    {rest : String → Check α} (h : ∀ t, Gives σ (rest t) Q) :
    Gives σ (settledLeft leftType >>= rest) Q := by
  cases leftType with
  | none => exact gives_throw _
  | some t => exact h t

/-- A right side that decides alone whether it fits. -/
theorem gives_right {truth : Check Bool} {leftFits blamed barred : Bool}
    (h : Gives σ truth (Tells blamed barred)) :
    Gives σ (do return (leftFits, ← truth)) (RightTells leftFits blamed barred) := by
  exact h.bind fun fits quiet hfits => gives_last ⟨fun _ => rfl, hfits⟩

/-- A truth value on the right side of an equality. -/
theorem gives_equatedTruth (operator leftType : String) {r : Node} (leftFits : Bool)
    {leftLogic : Unit → Check Bool} {parts : TruthParts}
    (hagain : Gives σ (leftLogic ()) fun _ _ => True) (h : TruthTells σ r parts)
    (hr : r.isComparison = true ∨ r.isNegation = true ∨ r.isLogic = true) :
    Gives σ (equatedTruth operator leftType r leftFits leftLogic parts)
      (RightTells leftFits (rightBlamed r) (rightBarred r)) := by
  cases r with
  | comparison op l r =>
    exact .ite (fun _ => gives_misfit rightTells_refused) fun _ => gives_right (h.comparison rfl)
  | negation o =>
    exact .ite (fun _ => gives_misfit rightTells_refused) fun _ => gives_right (h.negation rfl)
  | logic op l r =>
    -- the left side is checked once more, and whatever comes of it the right one does not fit
    refine .ite (fun _ => ?_) fun _ => gives_misfit rightTells_refused
    exact hagain.bind fun fits quiet _ => gives_pure (rightTells_barred rfl)
  | _ => simp [Node.isComparison, Node.isNegation, Node.isLogic] at hr

/-- The right side of a comparison. -/
theorem gives_comparedRight (family : Family) (operator : String) {r : Node}
    (leftType : Option String) (leftFits : Bool) {leftLogic : Unit → Check Bool}
    {parts : TruthParts} (hagain : Gives σ (leftLogic ()) fun _ _ => True)
    (h : TruthTells σ r parts) :
    Gives σ (comparedRight i family operator r leftType leftFits leftLogic parts)
      (RightTells leftFits (rightBlamed r) (rightBarred r)) := by
  have hnumber := numberChecks (σ := σ) (i := i) r
  have hinvalid : Gives σ (do
      let _ ← invalidSide family operator r
      return (leftFits, false)) (RightTells leftFits (rightBlamed r) (rightBarred r)) :=
    (gives_invalidSide _ _ _).after_loud fun _ => gives_pure rightTells_refused
  unfold comparedRight
  cases hside : truthSide? family r parts with
  | some truth =>
    have hform := (gives_truthSide? h hside).1
    exact gives_settledLeft leftType fun t => gives_equatedTruth operator t leftFits hagain h hform
  | none =>
    dsimp only
    cases r with
    | literal kind v p =>
      dsimp only
      cases comparableLiteral? family kind with
      | none => exact hinvalid
      | some type =>
        refine gives_settledLeft leftType fun t => gives_right ?_
        exact .ite (fun _ => gives_misfit tells_refused) fun _ => gives_pure tells_accepted
    | empty p => exact gives_misfit rightTells_refused
    | identifier x p =>
      -- if the variable is of the type of the left side, it is quietly found not to fit
      refine (gives_comparedVariable family operator _ x).bind fun type quiet _ => ?_
      cases type with
      | none => exact gives_pure (rightTells_barred rfl)
      | some type =>
        refine gives_settledLeft leftType fun t => .ite (fun _ => ?_) fun _ => ?_
        · exact (gives_throw _).after fun _ => gives_pure (rightTells_barred rfl)
        · exact gives_pure (rightTells_barred rfl)
    | signed op o =>
      rw [show rightBlamed (.signed op o) = _ from sideBlamed_signed op o]
      exact gives_settledLeft leftType fun t => gives_right <|
        gives_comparedNumber t _ _ (hnumber.signed rfl unsettledType_ne_unknownType)
    | arithmetic op l r =>
      rw [show rightBlamed (.arithmetic op l r) = _ from sideBlamed_arithmetic op l r]
      exact gives_settledLeft leftType fun t => gives_right <|
        gives_comparedNumber t _ _ (hnumber.operation rfl unsettledType_ne_unknownType)
    | _ => exact hinvalid

/-- Both sides of a comparison. -/
theorem gives_bothCompared (operator : String) {l r : Node} {left right : TruthParts}
    (hl : TruthTells σ l left) (hr : TruthTells σ r right) :
    Gives σ (bothCompared i operator l r left right)
      (Tells (sideBlamed l || rightBlamed r) (truthBarred l || rightBarred r)) := by
  refine (gives_comparedLeft (familyOf operator) operator hl).bind ?_
  rintro ⟨leftType, leftFits⟩ quiet hleft
  refine (gives_comparedRight (familyOf operator) operator leftType leftFits hl.again hr).bind ?_
  rintro ⟨leftFits', rightFits⟩ quiet' ⟨hsame, hright⟩
  refine gives_pure ?_
  have hfits : (leftFits' && rightFits) = (leftFits && rightFits) := by
    cases rightFits with
    | true => rw [show leftFits' = leftFits from hsame rfl]
    | false => rw [Bool.and_false, Bool.and_false]
  rw [Bool.and_true, hfits]
  exact hleft.and hright

theorem gives_of_leaf {n : Node} (h : n.left = n.lacks "left") {Q : Bool → Bool → Prop} :
    Gives σ (logic i n) Q := by
  cases n with
  | arithmetic | comparison | logic => cases h
  | _ => exact gives_lacks _ _

/-- **The checks of truth values** report what does not fit, unless it is barred, and besides that
only what is blamed. -/
theorem truthTells : ∀ n : Node,
    TruthTells σ n ⟨fun _ => logic i n, fun _ => comparison i n, fun _ => negation i n⟩
  | .logic op l r => by
    have hboth := gives_bothTruths (i := i) op.symbol (truthTells l) (truthTells r)
    refine ⟨fun _ => ?_, fun hform => absurd hform Bool.false_ne_true,
      fun hform => absurd hform Bool.false_ne_true, ?_⟩
    · dsimp only
      rw [logic]
      exact hboth
    · dsimp only
      rw [logic]
      exact hboth.mono fun _ _ _ => trivial
  | .comparison op l r => by
    have hboth := gives_bothTruths (i := i) op.symbol (truthTells l) (truthTells r)
    refine ⟨fun hform => absurd hform Bool.false_ne_true, fun _ => ?_,
      fun hform => absurd hform Bool.false_ne_true, ?_⟩
    · dsimp only
      rw [comparison]
      exact gives_bothCompared op.symbol (truthTells l) (truthTells r)
    · dsimp only
      rw [logic]
      exact hboth.mono fun _ _ _ => trivial
  | .arithmetic op l r => by
    have hboth := gives_bothTruths (i := i) op.symbol (truthTells l) (truthTells r)
    refine ⟨fun hform => absurd hform Bool.false_ne_true,
      fun hform => absurd hform Bool.false_ne_true,
      fun hform => absurd hform Bool.false_ne_true, ?_⟩
    dsimp only
    rw [logic]
    exact hboth.mono fun _ _ _ => trivial
  | .negation o => by
    refine ⟨fun hform => absurd hform Bool.false_ne_true,
      fun hform => absurd hform Bool.false_ne_true, fun _ => ?_, gives_of_leaf rfl⟩
    dsimp only
    rw [negation]
    exact gives_negationOperand _ (truthTells o)
  | .empty _ | .literal .. | .identifier .. | .signed .. | .assignment .. | .declaration ..
  | .call .. | .otherwise _ | .conditional .. | .loop .. | .block .. | .program .. | .breakLoop
  | .continueLoop | .bare | .raw _ =>
    ⟨fun hform => absurd hform Bool.false_ne_true, fun hform => absurd hform Bool.false_ne_true,
      fun hform => absurd hform Bool.false_ne_true, gives_of_leaf rfl⟩

end truths

/-! ## Declarations -/

section declarations

variable {σ : Scopes} {i : ScopeId}

theorem gives_initialVariable (type shown x : String) (v : Node) :
    Gives σ (initialVariable i type shown x v) (Tells false false) := by
  refine (gives_variableType i x).after fun actual => ?_
  refine .ite (fun _ => gives_misfit tells_refused) fun _ => ?_
  exact .ite (fun _ => gives_misfit tells_refused) fun _ => gives_pure tells_accepted

theorem gives_initialNumber {type : String} (htype : type ≠ unknownType) (kind : LiteralKind)
    (v : Node) : Gives σ (initialNumber i type kind v) (Tells (numberBlamed type v) false) := by
  have hnumber := numberChecks (σ := σ) (i := i) v
  cases v with
  | signed op o =>
    exact (hnumber.signed rfl htype).bind fun answer quiet hanswer => gives_last hanswer.2
  | arithmetic op l r =>
    exact (hnumber.operation rfl htype).bind fun answer quiet hanswer => gives_last hanswer.2
  | literal k v p =>
    exact .ite (fun _ => gives_pure tells_accepted) fun _ => gives_labelledMisfit tells_refused
  | empty p => exact gives_pure tells_accepted
  | identifier x p => exact gives_initialVariable _ _ _ _
  | _ => exact gives_labelledMisfit tells_refused

theorem gives_initialTruth (v : Node) :
    Gives σ (initialTruth i v) (Tells (truthBlamed v) (truthBarred v)) := by
  have htruth := truthTells (σ := σ) (i := i) v
  cases v with
  | literal kind v p =>
    cases kind with
    | bool => exact gives_pure tells_accepted
    | int | float | string | plain => exact gives_labelledMisfit tells_refused
  | empty p => exact gives_pure tells_accepted
  | identifier x p => exact gives_initialVariable _ _ _ _
  | logic op l r => exact htruth.logic rfl
  | comparison op l r => exact htruth.comparison rfl
  | negation o => exact htruth.negation rfl
  | _ => exact gives_labelledMisfit tells_refused

/-- The check of an initial value. -/
theorem gives_initial {type : String} (htype : isChecked type) (v : Node) :
    Gives σ (initial i type v) (Tells (isBlamed type v) (isBarred type v)) := by
  rcases htype with rfl | rfl | rfl
  · exact gives_initialNumber (by decide) _ v
  · exact gives_initialNumber (by decide) _ v
  · exact gives_initialTruth v

/-- A value for which there is no check is barred. -/
theorem isBarred_of_unchecked {type : String} (htype : ¬isChecked type) (v : Node) :
    isBlamed type v = false ∧ isBarred type v = true := by
  rw [isChecked, not_or, not_or] at htype
  simp [isBlamed, isBarred, htype]

/-- The scopes with the symbol of a declaration recorded. -/
def recorded (σ : Scopes) (i : ScopeId) (x type : String) (isMutable : Bool) (v : Node) : Scopes :=
  σ.define i x (.symbol ⟨type, isMutable, isEmpty v⟩)

/-- A declaration records its symbol if its value fits, and does nothing else but report. -/
theorem declaration_tells {x type : String} {isMutable : Bool} {v : Node} {s s' : CheckState}
    (h : declaration i (.declaration x type isMutable v) s = .ok () s') :
    ∃ added fits, s'.reports = s.reports ++ added ∧
      s'.scopes = (if fits then recorded s.scopes i x type isMutable v else s.scopes) ∧
      Tells (isBlamed type v) (isBarred type v) fits added.isEmpty ∧
      (¬isChecked type → added = []) := by
  by_cases htype : isChecked type
  · rw [declaration_eq htype] at h
    obtain ⟨fits, t, hfits, hrecord⟩ := EStateM.bind_eq_ok.mp h
    obtain ⟨ht, added, hadded, htells⟩ := gives_initial htype v rfl hfits
    refine ⟨added, fits, ?_, ?_, htells, fun hn => absurd htype hn⟩ <;> cases fits <;> cases hrecord
    · exact hadded
    · exact hadded
    · exact ht
    · rw [if_pos rfl, recorded, ← ht]
  · rw [declaration_of_unchecked htype] at h
    obtain ⟨-, rfl⟩ := EStateM.pure_eq_ok.mp h
    obtain ⟨hblamed, hbarred⟩ := isBarred_of_unchecked htype v
    refine ⟨[], false, (List.append_nil _).symm, rfl, ?_, fun _ => rfl⟩
    rw [hblamed]
    exact tells_barred hbarred

/-- Reports were made and the scopes are as they were, or there were none and the scopes are those
with the symbol recorded; exactly one of the two. -/
def ReportedOrRecorded (added : List Diagnostic) (before recorded after : Scopes) : Prop :=
  (added ≠ [] ∧ after = before ∨ added = [] ∧ after = recorded) ∧
    ¬((added ≠ [] ∧ after = before) ∧ added = [] ∧ after = recorded)

theorem reportedOrRecorded_iff {added : List Diagnostic} {before recorded after : Scopes} :
    ReportedOrRecorded added before recorded after ↔
      after = if added.isEmpty then recorded else before := by
  cases added <;> simp [ReportedOrRecorded]

/-- **A declaration is reported or recorded.** If a declaration has been checked, and its value is
neither blamed nor barred, then either something was reported and the scopes are unchanged, or
nothing was reported and only the symbol has been recorded. A value that is blamed was reported in
any case, and its symbol recorded nevertheless if it fits. A declaration whose value is barred was
not recorded in any case, and that is in order only if something was reported. All texts are barred,
and nothing is reported of them. -/
theorem declaration_reported_or_recorded {i : ScopeId} {x type : String} {isMutable : Bool}
    {v : Node} {s s' : CheckState}
    (h : declaration i (.declaration x type isMutable v) s = .ok () s') :
    ∃ added, s'.reports = s.reports ++ added ∧
      let after := recorded s.scopes i x type isMutable v
      (isBlamed type v = false → isBarred type v = false →
        ReportedOrRecorded added s.scopes after s'.scopes) ∧
      (isBlamed type v = true → added ≠ [] ∧ (s'.scopes = s.scopes ∨ s'.scopes = after) ∧
        (ReportedOrRecorded added s.scopes after s'.scopes ↔ s'.scopes = s.scopes)) ∧
      (isBarred type v = true → s'.scopes = s.scopes ∧
        (ReportedOrRecorded added s.scopes after s'.scopes ↔ added ≠ [] ∨ after = s.scopes)) ∧
      (¬isChecked type → isBarred type v = true ∧ added = []) := by
  obtain ⟨added, fits, hadded, hscopes, htells, htext⟩ := declaration_tells h
  refine ⟨added, hadded, ?_⟩
  simp only [reportedOrRecorded_iff]
  refine ⟨fun hblamed hbarred => ?_, fun hblamed => ?_, fun hbarred => ?_, fun htype => ?_⟩
  · rw [hblamed, hbarred, tells_plain_iff] at htells
    rw [hscopes, htells]
  · have hloud := htells.loud hblamed
    refine ⟨List.isEmpty_eq_false_iff.mp hloud, ?_, by rw [hloud]; rfl⟩
    cases fits with
    | true => exact .inr hscopes
    | false => exact .inl hscopes
  · rw [htells.unfit hbarred] at hscopes
    refine ⟨hscopes, ?_⟩
    rw [hscopes]
    cases added with
    | nil => exact ⟨fun heq => .inr heq.symm, fun hor => (hor.resolve_left fun hne => hne rfl).symm⟩
    | cons d ds => exact iff_of_true rfl (.inl (List.cons_ne_nil d ds))
  · exact ⟨(isBarred_of_unchecked htype v).2, htext htype⟩

/-- `1 < 2 and not true` -/
def orderAndNegation : Node :=
  .logic .and
    (.comparison .less (.literal .int (.int 1) ⟨1, 14⟩) (.literal .int (.int 2) ⟨1, 18⟩))
    (.negation (.literal .bool (.bool true) ⟨1, 31⟩))

/-- `var bool b = 1 < 2 and not true` is recorded and not reported. -/
theorem orderAndNegation_recorded :
    ∃ after, declaration Scopes.root (.declaration "b" "bool" true orderAndNegation)
        ⟨⟨#[{}]⟩, []⟩ = .ok () ⟨after, []⟩ ∧
      ReportedOrRecorded [] ⟨#[{}]⟩ (recorded ⟨#[{}]⟩ Scopes.root "b" "bool" true orderAndNegation)
        after := by
  have hcheck : declaration Scopes.root (.declaration "b" "bool" true orderAndNegation)
      ⟨⟨#[{}]⟩, []⟩ =
        .ok () ⟨recorded ⟨#[{}]⟩ Scopes.root "b" "bool" true orderAndNegation, []⟩ := by
    with_unfolding_all rfl
  obtain ⟨added, hadded, hplain, -⟩ := declaration_reported_or_recorded hcheck
  have hnone : added = [] := hadded.symm
  subst hnone
  exact ⟨_, hcheck, hplain (by decide) (by decide)⟩

/-- `-5` -/
def negativeFive : Node :=
  .signed .minus (.literal .int (.int 5) ⟨1, 14⟩)

/-- `5 == x` -/
def fiveEqualsX : Node :=
  .comparison .equal (.literal .int (.int 5) ⟨2, 14⟩) (.identifier "x" ⟨2, 19⟩)

set_option maxRecDepth 20000 in
/-- `var int x = -5` is reported, and recorded nevertheless; after it `var bool b = 5 == x` is
neither. -/
theorem negativeFive_reported_and_recorded :
    ∃ σ s, IsParsed (.program [.declaration "x" "int" true negativeFive,
        .declaration "b" "bool" true fiveEqualsX] Scopes.root) σ ∧
      (declaration Scopes.root (.declaration "x" "int" true negativeFive) ⟨σ, []⟩ = .ok () s ∧
        ¬ReportedOrRecorded s.reports σ (recorded σ Scopes.root "x" "int" true negativeFive)
          s.scopes) ∧
      declaration Scopes.root (.declaration "b" "bool" true fiveEqualsX) s = .ok () s ∧
        ¬ReportedOrRecorded [] s.scopes
          (recorded s.scopes Scopes.root "b" "bool" true fiveEqualsX) s.scopes := by
  let σ : Scopes := ⟨#[{}]⟩
  let s : CheckState := ⟨recorded σ Scopes.root "x" "int" true negativeFive,
    [.typing (.signedInteger "int") ⟨1, 14⟩,
      .typing (.signedOther "int" "integer 64-bits") ⟨1, 14⟩]⟩
  have hread : (Reading.ofSource false []
      "var int x = -5\nvar bool b = 5 == x\n").program? false =
        some (.program [.declaration "x" "int" true negativeFive,
          .declaration "b" "bool" true fiveEqualsX] Scopes.root, σ) := by
    with_unfolding_all rfl
  have hnumber : declaration Scopes.root (.declaration "x" "int" true negativeFive) ⟨σ, []⟩ =
      .ok () s := by
    with_unfolding_all rfl
  have htruth : declaration Scopes.root (.declaration "b" "bool" true fiveEqualsX) s =
      .ok () s := by
    with_unfolding_all rfl
  have hx : s.scopes ≠ σ := by
    intro heq
    have hbinds := congrArg (fun τ => (τ.bindings Scopes.root).binds "x") heq
    exact absurd hbinds (by decide)
  have hb : s.scopes ≠ recorded s.scopes Scopes.root "b" "bool" true fiveEqualsX := by
    intro heq
    have hbinds := congrArg (fun τ => (τ.bindings Scopes.root).binds "b") heq
    exact absurd hbinds (by decide)
  refine ⟨σ, s, isParsed_of_source hread, ⟨hnumber, ?_⟩, htruth, ?_⟩
  · rw [reportedOrRecorded_iff]
    exact hx
  · rw [reportedOrRecorded_iff]
    exact hb

end declarations

end Check

end Scriptlet
