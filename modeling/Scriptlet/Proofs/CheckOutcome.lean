import Scriptlet.Proofs.ReadTrees
import Scriptlet.Proofs.ScopeNames
import Scriptlet.Proofs.TypeRules
import Scriptlet.Typing.Program

/-! # How a check ends

The checker is to report what does not fit and go on. It does not always: some of its rules ask a
node for a part that nodes of its kind do not have, or use a type that was never found out, and then
the check ends with a fault. This module says exactly which expressions are *clean*, that is can be
checked without such a slip, given the types that are seen of the variables.

Whether an expression is clean is a matter of its form and of the types of its variables. The type
that is expected of a number is carried along: it is settled by the first number literal, if not
before (`settledAfter`). Each check then ends with an answer if its expression is clean, and with a
slip if not (`Check.Ends`); the recursions over the tree are at the end of the sections.
-/
namespace Scriptlet

/-- Whether the fault is that a part is missing or that a result was used before it was set. -/
def Fault.isSlip : Fault → Bool
  | .missingField .. | .unassigned _ => true
  | _ => false

namespace Check

/-! ## Clean expressions -/

/-- The type that is seen of a variable. -/
def typeSeen (σ : Scopes) (i : ScopeId) (x : String) : String :=
  match σ.get? i x with
  | some (.symbol s) => if s.isNone then emptyType else s.typeName
  | _ => unknownType

/-- The expected type behind an expression: the one that was expected before, or else the type of
the first number in it. -/
def settledAfter (expected : String) : Node → String
  | .literal .int _ _ => if expected = unsettledType then "int" else expected
  | .literal .float _ _ => if expected = unsettledType then "float" else expected
  | .signed _ o => settledAfter expected o
  | .arithmetic _ l r => settledAfter (settledAfter expected l) r
  | _ => expected

section clean

variable (Γ : String → String)

/-- Whether what stands behind a sign can be checked against the expected type, where it is known
whether it can as an expression with a sign and as an operation. A variable has to be of that type
or empty. -/
def operandClean (expected : String) (o : Node) (sign operation : Bool) : Bool :=
  match o with
  | .identifier x _ => Γ x ≠ unknownType && (Γ x = emptyType || Γ x = expected)
  | .signed .. => sign
  | .arithmetic .. => operation
  | _ => true

/-- Whether the left side of an operation can be checked. A variable can be unknown. -/
def leftClean (expected : String) (l : Node) (sign operation : Bool) : Bool :=
  match l with
  | .identifier x _ => Γ x = unknownType || Γ x = emptyType || Γ x = expected
  | .signed .. => sign
  | .arithmetic .. => operation
  | _ => true

/-- Whether the right side of an operation can be checked. If a type is settled when an operation is
met there, then the left side is checked `again` in its place. -/
def rightClean (expected : String) (r : Node) (sign operation again : Bool) : Bool :=
  match r with
  | .identifier x _ => Γ x = emptyType || Γ x = expected
  | .signed .. => sign
  | .arithmetic .. => if expected = unsettledType then operation else again
  | .call .. => false
  | _ => true

mutual

/-- Whether an expression with a sign can be checked against the expected type. -/
def signClean (expected : String) : Node → Bool
  | .signed _ o => operandClean Γ expected o (signClean expected o) (operationClean expected o)
  | _ => false

/-- Whether a node can be checked as an operation, against the expected type. -/
def operationClean (expected : String) : Node → Bool
  | .arithmetic _ l r | .comparison _ l r | .logic _ l r =>
    let settled := settledAfter expected l
    leftClean Γ expected l (signClean expected l) (operationClean expected l) &&
      rightClean Γ settled r (signClean settled r) (operationClean settled r)
        (operationClean settled l)
  | _ => false

end

/-- Whether a number can be checked against the expected type. -/
def numberClean (expected : String) (n : Node) : Bool :=
  match n with
  | .signed .. => signClean Γ expected n
  | .arithmetic .. => operationClean Γ expected n
  | _ => true

/-- Whether the node is of a form that a truth value can have. -/
def isTruthForm : Node → Bool
  | .literal .bool _ _ | .empty _ | .identifier .. | .logic .. | .comparison ..
  | .negation _ => true
  | _ => false

/-- The type of the left side of a comparison, if it has one that can be compared. -/
def comparedType? (family : Family) (l : Node) : Option String :=
  match l with
  | .literal kind _ _ => comparableLiteral? family kind
  | .identifier x _ => if (comparable family).contains (Γ x) then some (Γ x) else none
  | .arithmetic .. | .signed .. => some (settledAfter unsettledType l)
  | .comparison .. | .negation _ | .logic .. => if family = .equality then some "bool" else none
  | _ => none

/-- Whether the right side of a comparison can be checked, where the type of the left side and
whether the right side can as a truth value are known. For `and` and `or` on the right of an
equality, the left side is checked `again` in their place. -/
def comparedClean (family : Family) (type? : Option String) (r : Node) (truth again : Bool) :
    Bool :=
  match r with
  | .literal kind _ _ => (comparableLiteral? family kind).isNone || type?.isSome
  | .identifier x _ => !(comparable family).contains (Γ x) || type? = some (Γ x)
  | .arithmetic .. | .signed .. =>
    (type? = some "int" || type? = some "float") && numberClean Γ unsettledType r
  | .comparison .. | .negation _ =>
    family ≠ .equality || type?.isSome && (type? ≠ some "bool" || truth)
  | .logic .. => family ≠ .equality || type?.isSome && (type? ≠ some "bool" || again)
  | .empty _ => true
  | _ => false

mutual

/-- Whether a truth value can be checked. -/
def truthClean : Node → Bool
  | .negation o => !isEmpty o && truthClean o
  | .logic _ l r => truthClean l && truthClean r && (isTruthForm r || !isEmpty l && r.isPlaced)
  | .comparison op l r =>
    let family := familyOf op.symbol
    numberClean Γ unsettledType l && (family ≠ .equality || truthClean l) &&
      comparedClean Γ family (comparedType? Γ family l) r (truthClean r) (logicClean l)
  | _ => true

/-- Whether a node can be checked as an operation with `and` or `or`. -/
def logicClean : Node → Bool
  | .logic _ l r | .comparison _ l r | .arithmetic _ l r =>
    truthClean l && truthClean r && (isTruthForm r || !isEmpty l && r.isPlaced)
  | _ => false

end

end clean

/-! ## Outcomes -/

section outcomes

variable {α β : Type} {σ : Scopes} {x : Check α} {c d : Prop} {P Q : α → Prop}

/-- Started with the scopes `σ`, the check leaves them alone and gives an answer of which `Q` holds,
if it is `clean`, and else ends with a slip. -/
def Ends (σ : Scopes) (x : Check α) (clean : Prop) (Q : α → Prop) : Prop :=
  ∀ s : CheckState, s.scopes = σ →
    (clean → ∃ a s', x s = .ok a s' ∧ s'.scopes = σ ∧ Q a) ∧
    (¬clean → ∃ f s', x s = .error f s' ∧ f.isSlip = true)

theorem ends_pure {a : α} (h : Q a) : Ends σ (pure a : Check α) True Q :=
  fun s hs => ⟨fun _ => ⟨a, s, rfl, hs, h⟩, fun hn => absurd trivial hn⟩

theorem ends_throw {f : Fault} (h : f.isSlip = true) : Ends σ (throw f : Check α) False Q :=
  fun s _ => ⟨False.elim, fun _ => ⟨f, s, rfl, h⟩⟩

theorem Ends.congr (h : Ends σ x c Q) (hcd : c ↔ d) : Ends σ x d Q :=
  fun s hs => ⟨fun hd => (h s hs).1 (hcd.mpr hd), fun hd => (h s hs).2 fun hc => hd (hcd.mp hc)⟩

theorem Ends.of_true (h : Ends σ x True Q) (hc : c) : Ends σ x c Q :=
  h.congr (iff_of_true trivial hc)

theorem Ends.of_false (h : Ends σ x False Q) (hc : ¬c) : Ends σ x c Q :=
  h.congr (iff_of_false id hc)

theorem Ends.mono (h : Ends σ x c P) (hPQ : ∀ a, P a → Q a) : Ends σ x c Q := by
  refine fun s hs => ⟨fun hc => ?_, (h s hs).2⟩
  obtain ⟨a, s', hx, hs', ha⟩ := (h s hs).1 hc
  exact ⟨a, s', hx, hs', hPQ a ha⟩

/-- A sequence is clean if both of its parts are. -/
theorem Ends.bind {f : α → Check β} {R : β → Prop} (hx : Ends σ x c P)
    (hf : ∀ a, P a → Ends σ (f a) d R) : Ends σ (x >>= f) (c ∧ d) R := by
  intro s hs
  by_cases hc : c
  · obtain ⟨a, t, ha, ht, hP⟩ := (hx s hs).1 hc
    rw [EStateM.bind_of_ok ha]
    exact ⟨fun hcd => (hf a hP t ht).1 hcd.2, fun hn => (hf a hP t ht).2 fun hd => hn ⟨hc, hd⟩⟩
  · obtain ⟨f, t, he, hslip⟩ := (hx s hs).2 hc
    rw [EStateM.bind_of_error he]
    exact ⟨fun hcd => absurd hcd.1 hc, fun _ => ⟨f, t, rfl, hslip⟩⟩

/-- What follows on a first step that is always clean. -/
theorem Ends.after {f : α → Check β} {R : β → Prop} (hx : Ends σ x True P)
    (hf : ∀ a, P a → Ends σ (f a) d R) : Ends σ (x >>= f) d R :=
  (hx.bind hf).congr (and_iff_right trivial)

/-- What follows on a first step does not matter for it to be clean. -/
theorem Ends.map {f : α → Check β} {R : β → Prop} (hx : Ends σ x c P)
    (hf : ∀ a, P a → Ends σ (f a) True R) : Ends σ (x >>= f) c R :=
  (hx.bind hf).congr (and_iff_left trivial)

theorem Ends.ite {b : Prop} [Decidable b] {y : Check α} (hx : b → Ends σ x c Q)
    (hy : ¬b → Ends σ y c Q) : Ends σ (if b then x else y) c Q := by
  split
  · exact hx ‹_›
  · exact hy ‹_›

/-! ## Small checks -/

/-- A part that is there. -/
theorem ends_ofExcept {e : Except Fault α} {a : α} (h : e = .ok a) :
    Ends σ (ofExcept e) True (fun b => b = a) := by
  rw [h]
  exact ends_pure rfl

/-- It is a slip to ask for a part that is missing. -/
theorem ends_lacks (n : Node) (field : String) :
    Ends σ (ofExcept (n.lacks field) : Check α) False Q :=
  ends_throw rfl

/-- A report needs a place. -/
theorem ends_report (problem : TypeProblem) (n : Node) :
    Ends σ (report problem n) (n.isPlaced = true) (fun _ => True) := by
  intro s hs
  rw [Node.isPlaced, report, Node.pos]
  cases n.pos? with
  | some p => exact ⟨fun _ => ⟨_, _, rfl, hs, trivial⟩, fun h => absurd rfl h⟩
  | none => exact ⟨fun h => absurd h Bool.false_ne_true, fun _ => ⟨_, _, rfl, rfl⟩⟩

/-- At a place, a report leads on. -/
theorem ends_after_report {problem : TypeProblem} {n : Node} {f : Unit → Check β} {R : β → Prop}
    (hn : n.isPlaced = true) (hf : ∀ u, Ends σ (f u) d R) : Ends σ (report problem n >>= f) d R :=
  ((ends_report problem n).bind fun u _ => hf u).congr (and_iff_right hn)

/-- A report and then an answer. -/
theorem ends_misfit {problem : TypeProblem} {n : Node} {a : α} (hn : n.isPlaced = true) (h : Q a) :
    Ends σ (do report problem n; return a) True Q :=
  ends_after_report hn fun _ => ends_pure h

/-- A report that names a node, and then an answer. -/
theorem ends_labelledMisfit {problem : String → TypeProblem} {labelled n : Node} {a : α}
    (hlabel : ∃ text, labelled.label = .ok text) (hn : n.isPlaced = true) (h : Q a) :
    Ends σ (do
      let text ← ofExcept labelled.label
      report (problem text) n
      return a) True Q := by
  obtain ⟨text, htext⟩ := hlabel
  exact (ends_ofExcept htext).after fun _ _ => ends_misfit hn h

/-- Among symbols, every variable has a type, if only that it is unknown. -/
theorem ends_variableType (h : σ.HoldsSymbols) (i : ScopeId) (x : String) :
    Ends σ (variableType i x) True (fun t => t = typeSeen σ i x) := by
  intro s hs
  subst hs
  refine ⟨fun _ => ?_, fun hn => absurd trivial hn⟩
  rw [variableType, EStateM.bind_of_ok (EStateM.get_apply s), typeSeen]
  cases hx : s.scopes.get? i x with
  | none => exact ⟨_, s, rfl, rfl, rfl⟩
  | some v =>
    obtain ⟨symbol, rfl⟩ := h.get? hx
    exact ⟨_, s, rfl, rfl, rfl⟩

end outcomes

/-- An expression with a place can be named, unless it is empty. -/
theorem exists_label : ∀ {n : Node}, n.IsOperand → n.isPlaced = true → isEmpty n = false →
    ∃ text, n.label = .ok text
  | .literal kind _ _, hn, _, _ => by
    cases kind with
    | plain => exact absurd rfl hn
    | int | float | string | bool => exact ⟨_, rfl⟩
  | .identifier .., _, _, _ | .signed .., _, _, _ | .negation _, _, _, _ | .logic .., _, _, _
  | .comparison .., _, _, _ | .arithmetic .., _, _, _ => ⟨_, rfl⟩

/-! ## Numbers -/

section numbers

variable {σ : Scopes} {i : ScopeId} {expected : String} {l r o : Node}

theorem settledAfter_of_settled (h : expected ≠ unsettledType) :
    ∀ n : Node, settledAfter expected n = expected
  | .literal kind _ _ => by
    cases kind with
    | int | float => exact if_neg h
    | string | bool | plain => rfl
  | .signed _ o => settledAfter_of_settled h o
  | .arithmetic _ l r => by
    rw [settledAfter, settledAfter_of_settled h l, settledAfter_of_settled h r]
  | .empty _ | .identifier .. | .negation _ | .logic .. | .comparison .. | .assignment ..
  | .declaration .. | .call .. | .otherwise _ | .conditional .. | .loop .. | .block ..
  | .program .. | .breakLoop | .continueLoop | .bare | .raw _ => rfl

theorem settle_fst (expected actual : String) :
    (settle expected actual).1 = if expected = unsettledType then actual else expected := by
  rw [settle]
  split
  · rename_i h
    rw [← h]
    split <;> rfl
  · split <;> rfl

theorem ends_numberOperand (operator actual : String) (problem : String → String → TypeProblem)
    {side : Node} (hside : side.isPlaced = true) :
    Ends σ (numberOperand side operator actual expected problem) True
      (fun a => a.1 = if expected = unsettledType then actual else expected) := by
  unfold numberOperand
  have hsettle := settle_fst expected actual
  generalize settle expected actual = answer at hsettle
  obtain ⟨settled, fits⟩ := answer
  exact .ite (fun _ => ends_after_report hside fun _ => ends_pure hsettle)
    fun _ => ends_pure hsettle

/-- A variable on one side of an operation has to be empty or of the expected type. -/
theorem ends_variableOperand (n : Node) (x type : String) (p : Pos) :
    Ends σ (variableOperand n (.identifier x p) x type expected)
      (type = emptyType ∨ type = expected) (fun a => a.1 = expected) := by
  refine .ite (fun hempty => .of_true (ends_misfit rfl rfl) (.inl hempty)) fun hempty => ?_
  refine .ite (fun htype => .of_false (ends_lacks n _) fun h => h.elim hempty htype) fun htype => ?_
  have hclean : type = emptyType ∨ type = expected := .inr (Decidable.not_not.mp htype)
  exact .ite (fun _ => .of_true (ends_misfit rfl rfl) hclean)
    fun _ => .of_true (ends_pure rfl) hclean

/-- The check of a number leaves the type behind that the number settles. -/
def NumberEnds (σ : Scopes) (n : Node) (inner : String → Check (String × Bool))
    (clean : String → Bool) : Prop :=
  ∀ expected, Ends σ (inner expected) (clean expected = true)
    (fun a => a.1 = settledAfter expected n)

theorem ends_nested {n : Node} {inner : String → Check (String × Bool)} {clean : String → Bool}
    (h : NumberEnds σ n inner clean) :
    Ends σ (nested inner expected) (clean expected = true)
      (fun a => a.1 = settledAfter expected n) := by
  refine .ite (fun hopen => ?_) fun hopen => ?_
  · subst hopen
    exact h unsettledType
  · exact (h expected).map fun a _ => ends_pure (settledAfter_of_settled hopen n).symm

/-- The left side of an operation. -/
theorem ends_leftOperand (hσ : σ.HoldsSymbols) (n : Node) (operator : String) (hl : l.IsOperand)
    (hplaced : l.isPlaced = true) {signed arithmetic : String → Check (String × Bool)}
    {signs operations : String → Bool} (hsigned : l.isSigned = true → NumberEnds σ l signed signs)
    (harithmetic : l.isOperation = true → NumberEnds σ l arithmetic operations) :
    Ends σ (leftOperand i n operator l signed arithmetic expected)
      (leftClean (typeSeen σ i) expected l (signs expected) (operations expected) = true)
      (fun a => a.1 = settledAfter expected l) := by
  cases l with
  | literal kind v p =>
    cases kind with
    | int | float => exact .of_true (ends_numberOperand _ _ _ rfl) rfl
    | string | bool => exact .of_true (ends_labelledMisfit ⟨_, rfl⟩ rfl rfl) rfl
    | plain => exact absurd rfl hl
  | signed op o => exact ends_nested (hsigned rfl)
  | arithmetic op l r => exact ends_nested (harithmetic rfl)
  | empty p => exact .of_true (ends_misfit rfl rfl) rfl
  | identifier x p =>
    refine (ends_variableType hσ i x).after fun type htype => ?_
    subst htype
    refine .ite (fun hunknown => .of_true (ends_misfit rfl rfl) ?_) fun hunknown => ?_
    · simp [leftClean, hunknown]
    · exact (ends_variableOperand n x _ p).congr (by simp [leftClean, hunknown])
  | negation | logic | comparison => exact .of_true (ends_labelledMisfit ⟨_, rfl⟩ hplaced rfl) rfl
  | _ => cases hl <;> cases hplaced

/-- The right side of an operation. -/
theorem ends_rightOperand (hσ : σ.HoldsSymbols) (n : Node) (operator : String) (hr : r.IsOperand)
    {signed arithmetic arithmeticLeft : String → Check (String × Bool)}
    {signs operations : String → Bool} {again : Bool}
    (hsigned : r.isSigned = true → NumberEnds σ r signed signs)
    (harithmetic : r.isOperation = true → NumberEnds σ r arithmetic operations)
    (hleft : Ends σ (arithmeticLeft expected) (again = true) (fun _ => True)) :
    Ends σ (rightOperand i n operator r signed arithmetic arithmeticLeft expected)
      (rightClean (typeSeen σ i) expected r (signs expected) (operations expected) again = true)
      (fun a => a.1 = settledAfter expected r) := by
  cases r with
  | literal kind v p =>
    cases kind with
    | int | float => exact .of_true (ends_numberOperand _ _ _ rfl) rfl
    | string | bool => exact .of_true (ends_labelledMisfit ⟨_, rfl⟩ rfl rfl) rfl
    | plain => exact absurd rfl hr
  | signed op o => exact ends_nested (hsigned rfl)
  | arithmetic op l r =>
    rw [rightClean]
    refine .ite (fun hopen => ?_) fun hopen => ?_
    · subst hopen
      exact harithmetic rfl unsettledType
    · rw [if_neg hopen]
      exact hleft.map fun a _ => ends_pure (settledAfter_of_settled hopen _).symm
  | empty p => exact .of_true (ends_misfit rfl rfl) rfl
  | identifier x p =>
    refine (ends_variableType hσ i x).after fun type htype => ?_
    subst htype
    have hvariable : Ends σ (variableOperand n (.identifier x p) x (typeSeen σ i x) expected)
        (rightClean (typeSeen σ i) expected (.identifier x p) (signs expected) (operations expected)
          again = true) (fun a => a.1 = expected) :=
      (ends_variableOperand n x _ p).congr (by simp [rightClean])
    exact .ite (fun _ => ends_after_report rfl fun _ => hvariable) fun _ => hvariable
  | negation | logic | comparison => exact .of_true (ends_labelledMisfit ⟨_, rfl⟩ hr.1 rfl) rfl
  | call callee es => exact .of_false (ends_lacks _ "label") nofun
  | _ => cases hr

/-! ## Signs -/

theorem ends_signedNumber (actual : String) (problem : String → TypeProblem)
    (ho : o.isPlaced = true) :
    Ends σ (signedNumber o actual expected problem) True
      (fun a => a.1 = if expected = unsettledType then actual else expected) :=
  ends_misfit ho (settle_fst expected actual)

theorem ends_signedOther (op : Sign) (type : String) (hlabel : ∃ text, o.label = .ok text)
    (ho : o.isPlaced = true) : Ends σ (signedOther (.signed op o) o type) True (fun _ => True) := by
  obtain ⟨text, htext⟩ := hlabel
  exact (ends_ofExcept htext).after fun _ _ => (ends_report _ _).congr (iff_of_true ho trivial)

/-- What stands behind a sign. -/
theorem ends_signedOperand (hσ : σ.HoldsSymbols) (op : Sign) (ho : o.IsOperand)
    (hplaced : o.isPlaced = true) {signed arithmetic : String → Check (String × Bool)}
    {signs operations : String → Bool} (hsigned : o.isSigned = true → NumberEnds σ o signed signs)
    (harithmetic : o.isOperation = true → NumberEnds σ o arithmetic operations) :
    Ends σ (signedOperand i (.signed op o) o signed arithmetic expected)
      (operandClean (typeSeen σ i) expected o (signs expected) (operations expected) = true)
      (fun a => a.1 = settledAfter expected o) := by
  cases o with
  | literal kind v p =>
    cases kind with
    | int =>
      refine .of_true ((ends_signedNumber "int" _ rfl).after fun answer hanswer => ?_) rfl
      exact (ends_signedOther op answer.1 ⟨_, rfl⟩ rfl).after fun _ _ => ends_pure hanswer
    | float => exact .of_true (ends_signedNumber _ _ rfl) rfl
    | string | bool =>
      exact .of_true ((ends_signedOther op _ ⟨_, rfl⟩ rfl).after fun _ _ => ends_pure rfl) rfl
    | plain => exact absurd rfl ho
  | signed op o => exact ends_nested (hsigned rfl)
  | arithmetic op l r => exact ends_nested (harithmetic rfl)
  | empty p =>
    exact .of_true ((ends_ofExcept rfl).after fun _ _ => ends_misfit rfl rfl) rfl
  | identifier x p =>
    refine (ends_variableType hσ i x).after fun type htype => ?_
    subst htype
    have hclean : operandClean (typeSeen σ i) expected (.identifier x p) (signs expected)
        (operations expected) = true ↔
          typeSeen σ i x ≠ unknownType ∧
            (typeSeen σ i x = emptyType ∨ typeSeen σ i x = expected) := by
      simp [operandClean]
    rw [hclean]
    refine .ite (fun hunknown => .of_false (ends_lacks _ _) fun h => h.1 hunknown)
      fun hunknown => ?_
    refine .ite (fun hempty => .of_true (ends_misfit rfl rfl) ⟨hunknown, .inl hempty⟩)
      fun hempty => ?_
    refine .ite (fun htype => .of_false (ends_lacks _ _) fun h => h.2.elim hempty htype)
      fun htype => ?_
    have hknown : typeSeen σ i x = expected := Decidable.not_not.mp htype
    exact .ite (fun _ => .of_true (ends_misfit rfl rfl) ⟨hunknown, .inr hknown⟩)
      fun _ => .of_true (ends_pure rfl) ⟨hunknown, .inr hknown⟩
  | negation | logic | comparison =>
    exact .of_true ((ends_signedOther op _ ⟨_, rfl⟩ hplaced).after fun _ _ => ends_pure rfl) rfl
  | _ => cases ho <;> cases hplaced

/-- What is known of the checks of a node as a number. -/
structure NumberOutcomes (σ : Scopes) (i : ScopeId) (n : Node) : Prop where
  signed : n.isSigned = true → NumberEnds σ n (signed i n) (signClean (typeSeen σ i) · n)
  arithmetic : ∀ expected, Ends σ (arithmetic i n expected)
    (operationClean (typeSeen σ i) expected n = true)
    (fun a => n.isOperation = true → a.1 = settledAfter expected n)

/-- An operation is clean if its two sides are, the right one with the type that the left one has
settled. -/
theorem ends_bothOperands (hσ : σ.HoldsSymbols) (n : Node) (operator expected : String)
    (hl : l.IsOperand) (hplaced : l.isPlaced = true) (hr : r.IsOperand)
    (hleft : NumberOutcomes σ i l) (hright : NumberOutcomes σ i r) :
    Ends σ (bothOperands i n operator l r (signed i l) (arithmetic i l) (signed i r)
        (arithmetic i r) expected)
      ((leftClean (typeSeen σ i) expected l (signClean (typeSeen σ i) expected l)
          (operationClean (typeSeen σ i) expected l) &&
        rightClean (typeSeen σ i) (settledAfter expected l) r
          (signClean (typeSeen σ i) (settledAfter expected l) r)
          (operationClean (typeSeen σ i) (settledAfter expected l) r)
          (operationClean (typeSeen σ i) (settledAfter expected l) l)) = true)
      (fun a => a.1 = settledAfter (settledAfter expected l) r) := by
  rw [Bool.and_eq_true]
  refine (ends_leftOperand hσ n operator hl hplaced hleft.signed
    fun ho e => (hleft.arithmetic e).mono fun a ha => ha ho).bind fun answer hanswer => ?_
  obtain ⟨settled, leftFits⟩ := answer
  subst hanswer
  refine (ends_rightOperand hσ n operator hr hright.signed
    (fun ho e => (hright.arithmetic e).mono fun a ha => ha ho)
    ((hleft.arithmetic _).mono fun _ _ => trivial)).map fun answer hanswer => ?_
  exact ends_pure hanswer

/-- **Numbers.** An expression can be checked as a number exactly if it is clean. -/
theorem numberOutcomes (hσ : σ.HoldsSymbols) : ∀ {n : Node}, n.IsOperand → NumberOutcomes σ i n
  | .arithmetic op _ _, ⟨hplaced, hl, hr⟩ =>
    ⟨nofun, fun e => (ends_bothOperands hσ _ op.symbol e hl hplaced hr (numberOutcomes hσ hl)
      (numberOutcomes hσ hr)).mono fun _ ha _ => ha⟩
  | .comparison op _ _, ⟨hplaced, hl, hr⟩ =>
    ⟨nofun, fun e => (ends_bothOperands hσ _ op.symbol e hl hplaced hr (numberOutcomes hσ hl)
      (numberOutcomes hσ hr)).mono fun _ _ => nofun⟩
  | .logic op _ _, ⟨hplaced, hl, hr⟩ =>
    ⟨nofun, fun e => (ends_bothOperands hσ _ op.symbol e hl hplaced hr (numberOutcomes hσ hl)
      (numberOutcomes hσ hr)).mono fun _ _ => nofun⟩
  | .signed op o, ⟨hplaced, ho⟩ => by
    have hoperand := numberOutcomes hσ ho
    refine ⟨fun _ e => ?_, fun e => .of_false (ends_lacks _ _) nofun⟩
    exact ends_signedOperand hσ op ho hplaced hoperand.signed
      fun hop e => (hoperand.arithmetic e).mono fun a ha => ha hop
  | .empty _, _ | .literal .., _ | .identifier .., _ | .negation _, _ | .call .., _ =>
    ⟨nofun, fun _ => .of_false (ends_lacks _ _) nofun⟩

end numbers

/-! ## Truth values -/

section truths

variable {σ : Scopes} {i : ScopeId} {l r o n : Node}

/-- What is known of an answer when nothing is. -/
abbrev Any {α : Type} (_ : α) : Prop := True

theorem ends_label (n : Node) :
    Ends σ (ofExcept n.label) (∃ text, n.label = .ok text) Any := by
  have hcases : (∃ text, n.label = .ok text) ∨ n.label = n.lacks "label" := by
    cases n with
    | literal kind v p =>
      cases kind with
      | plain => exact .inr rfl
      | int | float | string | bool => exact .inl ⟨_, rfl⟩
    | identifier | signed | negation | logic | comparison | arithmetic => exact .inl ⟨_, rfl⟩
    | _ => exact .inr rfl
  rcases hcases with ⟨text, htext⟩ | hnone
  · exact .of_true ((ends_ofExcept htext).mono fun _ _ => trivial) ⟨text, htext⟩
  · rw [hnone]
    exact .of_false (ends_lacks _ _) nofun

/-- Among expressions with a place, only the empty one has no name. -/
theorem exists_label_iff (hn : n.IsOperand) (hplaced : n.isPlaced = true) :
    (∃ text, n.label = .ok text) ↔ isEmpty n = false := by
  refine ⟨?_, exists_label hn hplaced⟩
  rintro ⟨text, htext⟩
  cases n with
  | empty p => cases htext
  | _ => rfl

theorem ends_truthVariable (hσ : σ.HoldsSymbols) (x : String) (unknown other : TypeProblem)
    (hn : n.isPlaced = true) : Ends σ (truthVariable i n x unknown other) True Any := by
  refine (ends_variableType hσ i x).after fun type _ => ?_
  refine .ite (fun _ => ends_misfit hn trivial) fun _ => ?_
  refine .ite (fun _ => ends_misfit hn trivial) fun _ => ?_
  exact .ite (fun _ => ends_misfit hn trivial) fun _ => ends_pure trivial

/-- The checks of a node as a truth value. -/
def truthParts (i : ScopeId) (n : Node) : TruthParts :=
  ⟨fun _ => logic i n, fun _ => comparison i n, fun _ => negation i n⟩

/-- What is known of the checks of a node as a truth value. -/
structure TruthOutcomes (σ : Scopes) (i : ScopeId) (n : Node) : Prop where
  logic : Ends σ (logic i n) (logicClean (typeSeen σ i) n = true) Any
  comparison : n.isComparison = true →
    Ends σ (comparison i n) (truthClean (typeSeen σ i) n = true) Any
  negation : n.isNegation = true → Ends σ (negation i n) (truthClean (typeSeen σ i) n = true) Any

/-- One side of an operation with `and` or `or`: what has not the form of a truth value needs a name
and a place. -/
theorem ends_logicOperand (hσ : σ.HoldsSymbols) (operator : String) (labelled : Node)
    (hn : n.IsOperand) (h : TruthOutcomes σ i n) :
    Ends σ (logicOperand i operator n labelled (truthParts i n))
      (truthClean (typeSeen σ i) n = true ∧
        (isTruthForm n = true ∨ (∃ text, labelled.label = .ok text) ∧ n.isPlaced = true)) Any := by
  have hother : Ends σ (do
      let text ← ofExcept labelled.label
      report (.boolOperand text) n
      return false) ((∃ text, labelled.label = .ok text) ∧ n.isPlaced = true) Any :=
    (ends_label labelled).bind fun text _ => (ends_report _ n).map fun _ _ => ends_pure trivial
  cases n with
  | literal kind v p =>
    cases kind with
    | bool => exact .of_true (ends_pure trivial) ⟨rfl, .inl rfl⟩
    | int | float | string => exact hother.congr (by simp [truthClean, isTruthForm])
    | plain => exact absurd rfl hn
  | empty p => exact .of_true (ends_misfit rfl trivial) ⟨rfl, .inl rfl⟩
  | identifier x p => exact .of_true (ends_truthVariable hσ x _ _ rfl) ⟨rfl, .inl rfl⟩
  | logic op l r => exact h.logic.congr (by simp [truthClean, logicClean, isTruthForm])
  | comparison op l r => exact (h.comparison rfl).congr (by simp [isTruthForm])
  | negation o => exact (h.negation rfl).congr (by simp [isTruthForm])
  | signed | arithmetic | call => exact hother.congr (by simp [truthClean, isTruthForm])
  | _ => cases hn

/-- An operation with `and` or `or`. A problem on the right is reported with the name of the left
side, which has to have one. -/
theorem ends_bothTruths (hσ : σ.HoldsSymbols) (operator : String) (hl : l.IsOperand)
    (hplaced : l.isPlaced = true) (hr : r.IsOperand) (hleft : TruthOutcomes σ i l)
    (hright : TruthOutcomes σ i r) :
    Ends σ (bothTruths i operator l r (truthParts i l) (truthParts i r))
      ((truthClean (typeSeen σ i) l && truthClean (typeSeen σ i) r &&
        (isTruthForm r || !isEmpty l && r.isPlaced)) = true) Any := by
  have hlabel := exists_label_iff hl hplaced
  have hform : isTruthForm l = true ∨ isEmpty l = false := by
    cases l with
    | empty p => exact .inl rfl
    | _ => exact .inr rfl
  refine ((ends_logicOperand hσ operator l hl hleft).bind fun leftFits _ =>
    (ends_logicOperand hσ operator l hr hright).map fun rightFits _ => ends_pure trivial).congr ?_
  rw [hlabel]
  simp only [Bool.and_eq_true, Bool.or_eq_true, Bool.not_eq_true', hplaced, and_true, and_assoc,
    hform]

/-- What `not` applies to: anything but what is empty, for `not` has no operator to report. -/
theorem ends_negationOperand (hσ : σ.HoldsSymbols) (ho : o.IsOperand) (hplaced : o.isPlaced = true)
    (h : TruthOutcomes σ i o) :
    Ends σ (negationOperand i (.negation o) o (truthParts i o))
      ((!isEmpty o && truthClean (typeSeen σ i) o) = true) Any := by
  cases o with
  | literal kind v p =>
    cases kind with
    | bool => exact .of_true (ends_pure trivial) rfl
    | int | float | string => exact .of_true (ends_labelledMisfit ⟨_, rfl⟩ rfl trivial) rfl
    | plain => exact absurd rfl ho
  | empty p =>
    exact .of_false ((ends_lacks (Q := Any) _ _).map fun _ _ => ends_misfit rfl trivial) nofun
  | identifier x p => exact .of_true (ends_truthVariable hσ x _ _ rfl) rfl
  | logic op l r => exact h.logic
  | comparison op l r => exact h.comparison rfl
  | negation o => exact h.negation rfl
  | signed | arithmetic => exact .of_true (ends_labelledMisfit ⟨_, rfl⟩ hplaced trivial) rfl
  | _ => cases ho <;> cases hplaced

/-! ## Comparisons -/

/-- What needs the type of the left side can go on only if there is one. -/
theorem ends_settledLeft_bind {β : Type} {f : String → Check β} {d : String → Prop} {R : β → Prop}
    (type? : Option String) (hf : ∀ t, Ends σ (f t) (d t) R) :
    Ends σ (settledLeft type? >>= f) (∃ t, type? = some t ∧ d t) R := by
  cases type? with
  | some t => exact (hf t).congr (by simp)
  | none => exact fun s _ => ⟨nofun, fun _ => ⟨_, s, rfl, rfl⟩⟩

theorem ends_invalidSide (family : Family) (operator : String) (n : Node) :
    Ends σ (invalidSide family operator n) (n.isPlaced = true) (fun t => t = none) :=
  (ends_report _ n).map fun _ _ => ends_pure rfl

/-- A variable has a type that can be compared, or none, which is reported. -/
theorem ends_comparedVariable (hσ : σ.HoldsSymbols) (family : Family) (operator x : String)
    (hn : n.isPlaced = true) :
    Ends σ (comparedVariable i family operator n x) True
      (fun t => t = if (comparable family).contains (typeSeen σ i x) then some (typeSeen σ i x)
        else none) := by
  have hunknown : (comparable family).contains unknownType = false := by cases family <;> rfl
  have hempty : (comparable family).contains emptyType = false := by cases family <;> rfl
  refine (ends_variableType hσ i x).after fun type htype => ?_
  subst htype
  refine .ite (fun h => ends_misfit hn (by rw [h, hunknown]; rfl)) fun _ => ?_
  refine .ite (fun h => ends_misfit hn (by rw [h, hempty]; rfl)) fun _ => ?_
  refine .ite (fun h => ?_) fun h => ?_
  · refine ((ends_invalidSide family operator n).congr (iff_of_true hn trivial)).mono fun t ht => ?_
    rw [ht, if_neg (by simpa using h)]
  · exact ends_pure (by rw [if_pos (by simpa using h)])

/-- Whether a side of a comparison is compared as a truth value that has to be checked. -/
def isTruthSide (family : Family) (n : Node) : Bool :=
  family = .equality && (n.isComparison || n.isNegation || n.isLogic)

theorem truthSide?_eq_none {family : Family} (h : isTruthSide family n = false)
    (parts : TruthParts) : truthSide? family n parts = none := by
  unfold truthSide?
  split
  · cases h
  · cases h
  · cases h
  · rfl

/-- The left side of a comparison. -/
theorem ends_comparedLeft (hσ : σ.HoldsSymbols) (family : Family) (operator : String)
    (hl : l.IsOperand) (hplaced : l.isPlaced = true) (h : TruthOutcomes σ i l) :
    Ends σ (comparedLeft i family operator l (truthParts i l))
      ((numberClean (typeSeen σ i) unsettledType l &&
        (family ≠ .equality || truthClean (typeSeen σ i) l)) = true)
      (fun a => a.1 = comparedType? (typeSeen σ i) family l) := by
  have hnumber := numberOutcomes (i := i) hσ hl
  have hinvalid : Ends σ (do return (← invalidSide family operator l, false)) True
      (fun a : Option String × Bool => a.1 = none) :=
    ((ends_invalidSide family operator l).congr (iff_of_true hplaced trivial)).after
      fun t ht => ends_pure ht
  cases hside : isTruthSide family l with
  | true =>
    obtain ⟨rfl, hform⟩ : family = .equality ∧
        (l.isComparison || l.isNegation || l.isLogic) = true := by
      simpa [isTruthSide] using hside
    cases l with
    | comparison op l r =>
      exact ((h.comparison rfl).congr (by simp [numberClean])).map fun _ _ => ends_pure rfl
    | negation o =>
      exact ((h.negation rfl).congr (by simp [numberClean])).map fun _ _ => ends_pure rfl
    | logic op l r =>
      exact (h.logic.congr (by simp [numberClean, logicClean, truthClean])).map
        fun _ _ => ends_pure rfl
    | _ => cases hform
  | false =>
    unfold comparedLeft
    rw [truthSide?_eq_none hside]
    cases l with
    | literal kind v p =>
      refine .of_true ?_ (by simp [numberClean, truthClean])
      dsimp only
      cases hkind : comparableLiteral? family kind with
      | some type => exact ends_pure hkind.symm
      | none => exact hinvalid.mono fun a ha => ha.trans hkind.symm
    | empty p => exact .of_true (ends_misfit rfl rfl) (by simp [numberClean, truthClean])
    | identifier x p =>
      refine .of_true ?_ (by simp [numberClean, truthClean])
      exact (ends_comparedVariable hσ _ operator x rfl).after fun t ht => ends_pure ht
    | arithmetic op l r =>
      refine ((hnumber.arithmetic unsettledType).congr ?_).map
        fun a ha => ends_pure (congrArg some (ha rfl))
      simp [numberClean, truthClean]
    | signed op o =>
      refine ((hnumber.signed rfl unsettledType).congr ?_).map
        fun a ha => ends_pure (congrArg some ha)
      simp [numberClean, truthClean]
    | comparison | negation | logic =>
      have hfamily : family ≠ .equality := by
        simpa [isTruthSide, Node.isComparison, Node.isNegation, Node.isLogic] using hside
      refine .of_true (hinvalid.mono fun a ha => ?_) (by simp [numberClean, hfamily])
      rw [ha, comparedType?, if_neg hfamily]
    | _ => cases hl <;> cases hplaced

/-- A number on the right side needs a number on the left. -/
theorem ends_comparedNumber (type? : Option String) {inner : String → Check (String × Bool)}
    {clean : Bool} {Q : String × Bool → Prop} (hr : r.isPlaced = true)
    (hinner : Ends σ (inner unsettledType) (clean = true) Q)
    (problem : String → String → TypeProblem) (leftFits : Bool) :
    Ends σ (do return (leftFits, ← comparedNumber (← settledLeft type?) r inner problem))
      (((type? = some "int" || type? = some "float") && clean) = true) Any := by
  have hnumber (type : String) : Ends σ (comparedNumber type r inner problem)
      ((type = "int" ∨ type = "float") ∧ clean = true) Any := by
    refine .ite (fun htype => ?_) fun htype => .of_false (ends_throw rfl) fun h => htype h.1
    refine (hinner.congr (and_iff_right htype).symm).map fun answer _ => ?_
    exact .ite (fun _ => ends_misfit hr trivial) fun _ => ends_pure trivial
  refine (ends_settledLeft_bind type? fun type =>
    (hnumber type).map fun _ _ => ends_pure trivial).congr ?_
  cases type? <;> simp

/-- A truth value on the right side of an equality. -/
theorem ends_equatedTruth (operator type : String) (leftFits : Bool) (hr : r.IsOperand)
    (hform : (r.isComparison || r.isNegation || r.isLogic) = true) (hleft : TruthOutcomes σ i l)
    (h : TruthOutcomes σ i r) :
    Ends σ (equatedTruth operator type r leftFits (truthParts i l).logic (truthParts i r))
      (type ≠ "bool" ∨
        (if r.isLogic then logicClean (typeSeen σ i) l else truthClean (typeSeen σ i) r) = true)
      Any := by
  cases r with
  | comparison op a b =>
    refine .ite (fun htype => .of_true (ends_misfit hr.1 trivial) (.inl htype)) fun htype => ?_
    exact ((h.comparison rfl).congr (or_iff_right htype).symm).map fun _ _ => ends_pure trivial
  | negation o =>
    refine .ite (fun htype => .of_true (ends_misfit hr.1 trivial) (.inl htype)) fun htype => ?_
    exact ((h.negation rfl).congr (or_iff_right htype).symm).map fun _ _ => ends_pure trivial
  | logic op a b =>
    refine .ite (fun htype => ?_) fun htype => .of_true (ends_misfit hr.1 trivial) (.inl htype)
    exact (hleft.logic.congr (or_iff_right (not_not_intro htype)).symm).map
      fun _ _ => ends_pure trivial
  | _ => cases hform

/-- The right side of a comparison. -/
theorem ends_comparedRight (hσ : σ.HoldsSymbols) (family : Family) (operator : String)
    (hr : r.IsOperand) (leftFits : Bool) (type? : Option String) (hleft : TruthOutcomes σ i l)
    (h : TruthOutcomes σ i r) :
    Ends σ (comparedRight i family operator r type? leftFits (truthParts i l).logic
        (truthParts i r))
      (comparedClean (typeSeen σ i) family type? r (truthClean (typeSeen σ i) r)
        (logicClean (typeSeen σ i) l) = true) Any := by
  have hnumber := numberOutcomes (i := i) hσ hr
  have hinvalid : Ends σ (do let _ ← invalidSide family operator r; return (leftFits, false))
      (r.isPlaced = true) Any :=
    (ends_invalidSide family operator r).map fun _ _ => ends_pure trivial
  cases hside : isTruthSide family r with
  | true =>
    obtain ⟨rfl, hform⟩ : family = .equality ∧
        (r.isComparison || r.isNegation || r.isLogic) = true := by
      simpa [isTruthSide] using hside
    have hequated := ends_settledLeft_bind type? fun type =>
      ends_equatedTruth operator type leftFits hr hform hleft h
    cases r with
    | comparison | negation | logic =>
      refine hequated.congr ?_
      cases type? <;> simp [comparedClean, Node.isLogic]
    | _ => cases hform
  | false =>
    unfold comparedRight
    rw [truthSide?_eq_none hside]
    cases r with
    | literal kind v p =>
      dsimp only
      cases hkind : comparableLiteral? family kind with
      | some type =>
        refine (ends_settledLeft_bind type? (d := fun _ => True) fun t => ?_).congr ?_
        · have hliteral :
              Ends σ (comparedLiteral family operator t type (.literal kind v p)) True Any :=
            .ite (fun _ => ends_misfit rfl trivial) fun _ => ends_pure trivial
          exact hliteral.map fun _ _ => ends_pure trivial
        · simp [comparedClean, hkind, Option.isSome_iff_exists]
      | none =>
        exact .of_true (hinvalid.congr (iff_of_true rfl trivial)) (by simp [comparedClean, hkind])
    | empty p => exact .of_true (ends_misfit rfl trivial) rfl
    | identifier x p =>
      refine (ends_comparedVariable hσ _ operator x rfl).after fun t ht => ?_
      subst ht
      by_cases hx : typeSeen σ i x ∈ comparable family
      · rw [if_pos (List.contains_iff_mem.mpr hx)]
        refine (ends_settledLeft_bind type? (d := fun t => t = typeSeen σ i x) fun t => ?_).congr ?_
        · refine .ite (fun htype => .of_false ?_ htype) fun htype => ?_
          · exact (ends_throw (Q := Any) rfl).map fun _ _ => ends_pure trivial
          · exact .of_true (ends_pure trivial) (Decidable.not_not.mp htype)
        · simp [comparedClean, hx]
      · rw [if_neg fun h => hx (List.contains_iff_mem.mp h)]
        exact .of_true (ends_pure trivial) (by simp [comparedClean, hx])
    | arithmetic op a b =>
      have hplaced : (Node.arithmetic op a b).isPlaced = true := hr.1
      exact ends_comparedNumber type? hplaced (hnumber.arithmetic unsettledType) _ leftFits
    | signed op o =>
      have hplaced : (Node.signed op o).isPlaced = true := hr.1
      exact ends_comparedNumber type? hplaced (hnumber.signed rfl unsettledType) _ leftFits
    | comparison | negation | logic =>
      have hfamily : family ≠ .equality := by
        simpa [isTruthSide, Node.isComparison, Node.isNegation, Node.isLogic] using hside
      exact hinvalid.congr (iff_of_true hr.1 (by simp [comparedClean, hfamily]))
    | call callee es => exact hinvalid.congr (iff_of_false nofun nofun)
    | _ => cases hr

/-- A comparison. -/
theorem ends_bothCompared (hσ : σ.HoldsSymbols) (operator : String) (hl : l.IsOperand)
    (hplaced : l.isPlaced = true) (hr : r.IsOperand) (hleft : TruthOutcomes σ i l)
    (hright : TruthOutcomes σ i r) :
    Ends σ (bothCompared i operator l r (truthParts i l) (truthParts i r))
      ((numberClean (typeSeen σ i) unsettledType l &&
        (familyOf operator ≠ .equality || truthClean (typeSeen σ i) l) &&
        comparedClean (typeSeen σ i) (familyOf operator)
          (comparedType? (typeSeen σ i) (familyOf operator) l) r (truthClean (typeSeen σ i) r)
          (logicClean (typeSeen σ i) l)) = true) Any := by
  rw [Bool.and_eq_true]
  refine (ends_comparedLeft hσ _ operator hl hplaced hleft).bind fun answer hanswer => ?_
  obtain ⟨type?, leftFits⟩ := answer
  subst hanswer
  exact (ends_comparedRight hσ _ operator hr leftFits _ hleft hright).map
    fun _ _ => ends_pure trivial

/-- **Truth values.** An expression can be checked as a truth value exactly if it is clean. -/
theorem truthOutcomes (hσ : σ.HoldsSymbols) : ∀ {n : Node}, n.IsOperand → TruthOutcomes σ i n
  | .logic op _ _, ⟨hplaced, hl, hr⟩ =>
    ⟨ends_bothTruths hσ op.symbol hl hplaced hr (truthOutcomes hσ hl) (truthOutcomes hσ hr),
      nofun, nofun⟩
  | .arithmetic op _ _, ⟨hplaced, hl, hr⟩ =>
    ⟨ends_bothTruths hσ op.symbol hl hplaced hr (truthOutcomes hσ hl) (truthOutcomes hσ hr),
      nofun, nofun⟩
  | .comparison op _ _, ⟨hplaced, hl, hr⟩ =>
    ⟨ends_bothTruths hσ op.symbol hl hplaced hr (truthOutcomes hσ hl) (truthOutcomes hσ hr),
      fun _ => ends_bothCompared hσ op.symbol hl hplaced hr (truthOutcomes hσ hl)
        (truthOutcomes hσ hr), nofun⟩
  | .negation _, ⟨hplaced, ho⟩ =>
    ⟨.of_false (ends_lacks _ _) nofun, nofun,
      fun _ => ends_negationOperand hσ ho hplaced (truthOutcomes hσ ho)⟩
  | .empty _, _ | .literal .., _ | .identifier .., _ | .signed .., _ | .call .., _ =>
    ⟨.of_false (ends_lacks _ _) nofun, nofun, nofun⟩

/-! ## Conditions and initial values -/

/-- A condition needs a place besides, for it is reported there if it cannot be a truth value. -/
theorem ends_condition (hσ : σ.HoldsSymbols) (hn : n.IsOperand) :
    Ends σ (condition i n) ((n.isPlaced && truthClean (typeSeen σ i) n) = true) Any := by
  have htruth := truthOutcomes (i := i) hσ hn
  cases n with
  | literal kind v p =>
    cases kind with
    | bool => exact .of_true (ends_pure trivial) rfl
    | int | float | string => exact (ends_report _ _).congr (iff_of_true rfl rfl)
    | plain => exact absurd rfl hn
  | negation o =>
    refine ((htruth.negation rfl).congr ?_).map fun _ _ => ends_pure trivial
    rw [Bool.and_eq_true]
    exact (and_iff_right hn.1).symm
  | logic op l r =>
    refine (htruth.logic.congr ?_).map fun _ _ => ends_pure trivial
    rw [Bool.and_eq_true]
    exact (and_iff_right hn.1).symm
  | comparison op l r =>
    refine ((htruth.comparison rfl).congr ?_).map fun _ _ => ends_pure trivial
    rw [Bool.and_eq_true]
    exact (and_iff_right hn.1).symm
  | identifier x p =>
    refine .of_true ((ends_variableType hσ i x).after fun type _ => ?_) rfl
    have hreport (problem : TypeProblem) :
        Ends σ (report problem (.identifier x p)) True Any :=
      (ends_report _ _).congr (iff_of_true rfl trivial)
    refine .ite (fun _ => hreport _) fun _ => .ite (fun _ => hreport _) fun _ => ?_
    exact .ite (fun _ => ends_pure trivial) fun _ => hreport _
  | empty | signed | arithmetic | call =>
    exact (ends_report _ _).congr (by simp [truthClean])
  | _ => cases hn

/-- Whether the initial value of a variable of the given type can be checked. -/
def initialClean (Γ : String → String) (type : String) (v : Node) : Bool :=
  if type = "int" ∨ type = "float" then numberClean Γ type v else type ≠ "bool" || truthClean Γ v

theorem ends_initialVariable (hσ : σ.HoldsSymbols) (type shown x : String)
    (hn : n.isPlaced = true) : Ends σ (initialVariable i type shown x n) True Any := by
  refine (ends_variableType hσ i x).after fun actual _ => ?_
  refine .ite (fun _ => ends_misfit hn trivial) fun _ => ?_
  exact .ite (fun _ => ends_misfit hn trivial) fun _ => ends_pure trivial

theorem ends_initialNumber (hσ : σ.HoldsSymbols) (type : String) (kind : LiteralKind)
    (hn : n.IsOperand) (hplaced : n.isPlaced = true) :
    Ends σ (initialNumber i type kind n) (numberClean (typeSeen σ i) type n = true) Any := by
  have hnumber := numberOutcomes (i := i) hσ hn
  cases n with
  | signed op o => exact (hnumber.signed rfl type).map fun _ _ => ends_pure trivial
  | arithmetic op l r => exact (hnumber.arithmetic type).map fun _ _ => ends_pure trivial
  | literal k v p =>
    refine .of_true (.ite (fun _ => ends_pure trivial) fun _ => ?_) rfl
    exact ends_labelledMisfit (exists_label hn rfl rfl) rfl trivial
  | empty p => exact .of_true (ends_pure trivial) rfl
  | identifier x p => exact .of_true (ends_initialVariable hσ type type x rfl) rfl
  | negation | logic | comparison =>
    exact .of_true (ends_labelledMisfit ⟨_, rfl⟩ hplaced trivial) rfl
  | _ => cases hn <;> cases hplaced

theorem ends_initialTruth (hσ : σ.HoldsSymbols) (hn : n.IsOperand) (hplaced : n.isPlaced = true) :
    Ends σ (initialTruth i n) (truthClean (typeSeen σ i) n = true) Any := by
  have htruth := truthOutcomes (i := i) hσ hn
  cases n with
  | literal k v p =>
    cases k with
    | bool => exact .of_true (ends_pure trivial) rfl
    | int | float | string => exact .of_true (ends_labelledMisfit ⟨_, rfl⟩ rfl trivial) rfl
    | plain => exact absurd rfl hn
  | empty p => exact .of_true (ends_pure trivial) rfl
  | identifier x p => exact .of_true (ends_initialVariable hσ _ _ x rfl) rfl
  | logic op l r => exact htruth.logic
  | comparison op l r => exact htruth.comparison rfl
  | negation o => exact htruth.negation rfl
  | signed | arithmetic => exact .of_true (ends_labelledMisfit ⟨_, rfl⟩ hplaced trivial) rfl
  | _ => cases hn <;> cases hplaced

/-- The types whose initial values the checker looks at. -/
def isChecked (type : String) : Prop :=
  type = "int" ∨ type = "float" ∨ type = "bool"

/-- The check of an initial value. -/
def initial (i : ScopeId) (type : String) (v : Node) : Check Bool :=
  if type = "int" then initialNumber i type .int v
  else if type = "float" then initialNumber i type .float v
  else initialTruth i v

theorem ends_initial (hσ : σ.HoldsSymbols) {type : String} (htype : isChecked type)
    (hn : n.IsOperand) (hplaced : n.isPlaced = true) :
    Ends σ (initial i type n) (initialClean (typeSeen σ i) type n = true) Any := by
  rcases htype with rfl | rfl | rfl
  · exact ends_initialNumber hσ _ _ hn hplaced
  · exact ends_initialNumber hσ _ _ hn hplaced
  · exact ends_initialTruth hσ hn hplaced

end truths

end Check

end Scriptlet
