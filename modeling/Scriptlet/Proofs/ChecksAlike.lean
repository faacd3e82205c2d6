import Scriptlet.Proofs.CheckSteps
import Scriptlet.Proofs.Mentions
import Scriptlet.Proofs.RunSteps

/-! # Two checks side by side

A check is compared with another one of the same program, made with other scopes and behind earlier
reports. What a check does depends on the scopes only by the values of the variables that it meets,
and it never looks at what has been reported. So if two scopes are related in such a way that these
values are the same, and the relation is kept when a declaration is recorded on both sides
(`Check.Relates`), then both checks end in the same way, and the second one has added to the earlier
reports what the first has reported (`Check.Alike`).
-/
namespace Scriptlet.Check

variable {α β : Type}

/-- The scopes are related, and the second check has reported what the first one has, behind the
`earlier` reports. -/
structure Beside (S : Scopes → Scopes → Prop) (earlier : List Diagnostic) (s s' : CheckState) :
    Prop where
  scopes : S s.scopes s'.scopes
  reports : s'.reports = earlier ++ s.reports

/-- The check does the same on both sides. -/
def Alike (S : Scopes → Scopes → Prop) (earlier : List Diagnostic) (x : Check α) : Prop :=
  ∀ ⦃s s' : CheckState⦄, Beside S earlier s s' → SameOutcome (Beside S earlier) (x s) (x s')

section rules

variable {S : Scopes → Scopes → Prop} {earlier : List Diagnostic} {x y : Check α}

theorem alike_pure (a : α) : Alike S earlier (pure a : Check α) := fun _ _ hs => ⟨rfl, hs⟩

theorem alike_throw (f : Fault) : Alike S earlier (throw f : Check α) := fun _ _ hs => ⟨rfl, hs⟩

theorem Alike.bind {f : α → Check β} (hx : Alike S earlier x) (hf : ∀ a, Alike S earlier (f a)) :
    Alike S earlier (x >>= f) :=
  fun _ _ hs => (hx hs).bind fun a _ _ _ _ ht => hf a ht

theorem Alike.ite {c : Prop} [Decidable c] (hx : Alike S earlier x) (hy : Alike S earlier y) :
    Alike S earlier (if c then x else y) := by
  split
  · exact hx
  · exact hy

theorem alike_ofExcept (e : Except Fault α) : Alike S earlier (ofExcept e) := by
  cases e with
  | ok a => exact alike_pure a
  | error f => exact alike_throw f

theorem alike_report (problem : TypeProblem) (n : Node) : Alike S earlier (report problem n) := by
  refine (alike_ofExcept n.pos).bind fun p s s' hs => ⟨rfl, hs.scopes, ?_⟩
  show s'.reports ++ _ = earlier ++ (s.reports ++ _)
  rw [hs.reports, List.append_assoc]

/-- A report and then an answer. -/
theorem alike_misfit (problem : TypeProblem) (n : Node) (a : α) :
    Alike S earlier (do report problem n; return a) :=
  (alike_report problem n).bind fun _ => alike_pure a

/-- A report that names a node, and then an answer. -/
theorem alike_labelledMisfit (problem : String → TypeProblem) (labelled n : Node) (a : α) :
    Alike S earlier (do
      let text ← ofExcept labelled.label
      report (problem text) n
      return a) :=
  (alike_ofExcept labelled.label).bind fun text => alike_misfit (problem text) n a

end rules

/-- Related scopes have the same values for the variables that are mentioned so, and stay related
when a declaration that is mentioned so is recorded in both. -/
structure Relates (S : Scopes → Scopes → Prop) (M : Mention → Prop) : Prop where
  read : ∀ {x σ σ'}, M (.read x) → S σ σ' → ∀ i : ScopeId, σ.get? i x = σ'.get? i x
  define : ∀ {x σ σ'}, M (.declared x) → S σ σ' → ∀ (i : ScopeId) (v : Value),
    S (σ.define i x v) (σ'.define i x v)

section

variable {S : Scopes → Scopes → Prop} {earlier : List Diagnostic} {M : Mention → Prop}
  {i : ScopeId} {expected operator : String} {l r o : Node}

theorem alike_variableType (h : Relates S M) {x : String} (hx : M (.read x)) :
    Alike S earlier (variableType i x) := by
  intro s s' hs
  rw [variableType, EStateM.bind_of_ok (EStateM.get_apply s),
    EStateM.bind_of_ok (EStateM.get_apply s'), h.read hx hs.scopes i]
  cases s'.scopes.get? i x with
  | none => exact alike_pure _ hs
  | some v =>
    cases v with
    | symbol symbol => exact alike_pure _ hs
    | absent | noneValue | bool | int | float | complex | str | record => exact alike_throw _ hs

/-! ## Numbers -/

/-- The check of a number, whatever type is expected. -/
def NumberAlike (S : Scopes → Scopes → Prop) (earlier : List Diagnostic)
    (inner : String → Check (String × Bool)) : Prop :=
  ∀ expected, Alike S earlier (inner expected)

theorem alike_nested {inner : String → Check (String × Bool)} (h : NumberAlike S earlier inner) :
    Alike S earlier (nested inner expected) :=
  .ite (h _) ((h _).bind fun _ => alike_pure _)

theorem alike_variableOperand (n side : Node) (name type : String) :
    Alike S earlier (variableOperand n side name type expected) :=
  .ite (alike_misfit _ _ _) (.ite (alike_ofExcept _) (.ite (alike_misfit _ _ _) (alike_pure _)))

theorem alike_numberOperand (side : Node) (actual : String)
    (problem : String → String → TypeProblem) :
    Alike S earlier (numberOperand side operator actual expected problem) :=
  .ite (alike_misfit _ _ _) (alike_pure _)

theorem alike_leftOperand (h : Relates S M) (n : Node) (hl : ∀ a ∈ l.mentions, M a)
    {signed arithmetic : String → Check (String × Bool)} (hsigned : NumberAlike S earlier signed)
    (harithmetic : NumberAlike S earlier arithmetic) :
    Alike S earlier (leftOperand i n operator l signed arithmetic expected) := by
  unfold leftOperand
  split
  · exact alike_numberOperand _ _ _
  · exact alike_numberOperand _ _ _
  · exact alike_nested hsigned
  · exact alike_misfit _ _ _
  · refine (alike_variableType h (hl _ (List.mem_singleton_self _))).bind fun type => ?_
    exact .ite (alike_misfit _ _ _) (alike_variableOperand _ _ _ _)
  · exact alike_nested harithmetic
  · exact alike_labelledMisfit _ _ _ _

theorem alike_rightOperand (h : Relates S M) (n : Node) (hr : ∀ a ∈ r.mentions, M a)
    {signed arithmetic again : String → Check (String × Bool)}
    (hsigned : NumberAlike S earlier signed) (harithmetic : NumberAlike S earlier arithmetic)
    (hagain : NumberAlike S earlier again) :
    Alike S earlier (rightOperand i n operator r signed arithmetic again expected) := by
  unfold rightOperand
  split
  · exact alike_numberOperand _ _ _
  · exact alike_numberOperand _ _ _
  · exact alike_misfit _ _ _
  · exact alike_nested hsigned
  · refine (alike_variableType h (hr _ (List.mem_singleton_self _))).bind fun type => ?_
    exact .ite ((alike_report _ _).bind fun _ => alike_variableOperand _ _ _ _)
      (alike_variableOperand _ _ _ _)
  · exact .ite (harithmetic _) ((hagain _).bind fun _ => alike_pure _)
  · exact alike_labelledMisfit _ _ _ _

theorem alike_bothOperands (h : Relates S M) (n : Node) (hl : ∀ a ∈ l.mentions, M a)
    (hr : ∀ a ∈ r.mentions, M a)
    {signedLeft arithmeticLeft signedRight arithmeticRight : String → Check (String × Bool)}
    (hsignedLeft : NumberAlike S earlier signedLeft)
    (harithmeticLeft : NumberAlike S earlier arithmeticLeft)
    (hsignedRight : NumberAlike S earlier signedRight)
    (harithmeticRight : NumberAlike S earlier arithmeticRight) :
    NumberAlike S earlier (bothOperands i n operator l r signedLeft arithmeticLeft signedRight
      arithmeticRight) :=
  fun _ => (alike_leftOperand h n hl hsignedLeft harithmeticLeft).bind fun _ =>
    (alike_rightOperand h n hr hsignedRight harithmeticRight harithmeticLeft).bind
      fun _ => alike_pure _

theorem alike_signedOperand (h : Relates S M) (n : Node) (ho : ∀ a ∈ o.mentions, M a)
    {signed arithmetic : String → Check (String × Bool)} (hsigned : NumberAlike S earlier signed)
    (harithmetic : NumberAlike S earlier arithmetic) :
    NumberAlike S earlier (signedOperand i n o signed arithmetic) := by
  have hother (settled : String) : Alike S earlier (signedOther n o settled) :=
    (alike_ofExcept _).bind fun _ => alike_report _ _
  intro expected
  unfold signedOperand
  split
  · exact (alike_misfit _ _ _).bind fun _ => (hother _).bind fun _ => alike_pure _
  · exact alike_misfit _ _ _
  · exact (alike_ofExcept _).bind fun _ => alike_misfit _ _ _
  · exact alike_nested hsigned
  · exact alike_nested harithmetic
  · refine (alike_variableType h (ho _ (List.mem_singleton_self _))).bind fun type => ?_
    refine .ite (alike_ofExcept _) (.ite (alike_misfit _ _ _) (.ite (alike_ofExcept _) ?_))
    exact .ite (alike_misfit _ _ _) (alike_pure _)
  · exact (hother _).bind fun _ => alike_pure _

/-- A node can be checked as a number with a sign and as an operation on numbers. -/
theorem numbersAlike (h : Relates S M) : ∀ n : Node, (∀ a ∈ n.mentions, M a) →
    NumberAlike S earlier (signed i n) ∧ NumberAlike S earlier (arithmetic i n)
  | .arithmetic op l r, hn | .comparison op l r, hn | .logic op l r, hn => by
    obtain ⟨hl, hr⟩ := List.forall_mem_append.mp hn
    obtain ⟨hsl, hal⟩ := numbersAlike h l hl
    obtain ⟨hsr, har⟩ := numbersAlike h r hr
    refine ⟨fun _ => alike_ofExcept _, fun expected => ?_⟩
    rw [arithmetic]
    exact alike_bothOperands h _ hl hr hsl hal hsr har expected
  | .signed op o, hn | .negation o, hn => by
    have ho : ∀ a ∈ o.mentions, M a := hn
    obtain ⟨hs, ha⟩ := numbersAlike h o ho
    refine ⟨fun expected => ?_, fun _ => alike_ofExcept _⟩
    rw [signed]
    exact alike_signedOperand h _ ho hs ha expected
  | .empty _, _ | .literal .., _ | .identifier .., _ | .assignment .., _ | .declaration .., _
  | .call .., _ | .otherwise _, _ | .conditional .., _ | .loop .., _ | .block .., _
  | .program .., _ | .breakLoop, _ | .continueLoop, _ | .bare, _ | .raw _, _ =>
    ⟨fun _ => alike_ofExcept _, fun _ => alike_ofExcept _⟩

/-! ## Truth values and comparisons -/

/-- The checks that may be made of a part of a truth value do the same on both sides. -/
structure PartsAlike (S : Scopes → Scopes → Prop) (earlier : List Diagnostic) (parts : TruthParts) :
    Prop where
  logic : Alike S earlier (parts.logic ())
  comparison : Alike S earlier (parts.comparison ())
  negation : Alike S earlier (parts.negation ())

theorem alike_truthVariable (h : Relates S M) {x : String} (hx : M (.read x)) (side : Node)
    (unknown other : TypeProblem) :
    Alike S earlier (truthVariable i side x unknown other) := by
  refine (alike_variableType h hx).bind fun type => ?_
  exact .ite (alike_misfit _ _ _) (.ite (alike_misfit _ _ _)
    (.ite (alike_misfit _ _ _) (alike_pure _)))

theorem alike_logicOperand (h : Relates S M) (labelled : Node) (ho : ∀ a ∈ o.mentions, M a)
    {parts : TruthParts} (hparts : PartsAlike S earlier parts) :
    Alike S earlier (logicOperand i operator o labelled parts) := by
  unfold logicOperand
  split
  · exact alike_pure _
  · exact alike_misfit _ _ _
  · exact hparts.logic
  · exact hparts.comparison
  · exact hparts.negation
  · exact alike_truthVariable h (ho _ (List.mem_singleton_self _)) _ _ _
  · exact alike_labelledMisfit _ _ _ _

theorem alike_bothTruths (h : Relates S M) (hl : ∀ a ∈ l.mentions, M a)
    (hr : ∀ a ∈ r.mentions, M a) {left right : TruthParts} (hleft : PartsAlike S earlier left)
    (hright : PartsAlike S earlier right) :
    Alike S earlier (bothTruths i operator l r left right) :=
  (alike_logicOperand h l hl hleft).bind fun _ =>
    (alike_logicOperand h l hr hright).bind fun _ => alike_pure _

theorem alike_negationOperand (h : Relates S M) (n : Node) (ho : ∀ a ∈ o.mentions, M a)
    {parts : TruthParts} (hparts : PartsAlike S earlier parts) :
    Alike S earlier (negationOperand i n o parts) := by
  unfold negationOperand
  split
  · exact alike_pure _
  · exact (alike_ofExcept _).bind fun _ => alike_misfit _ _ _
  · exact hparts.logic
  · exact hparts.comparison
  · exact hparts.negation
  · exact alike_truthVariable h (ho _ (List.mem_singleton_self _)) _ _ _
  · exact alike_labelledMisfit _ _ _ _

theorem alike_truthSide? {family : Family} {side : Node} {parts : TruthParts}
    (hparts : PartsAlike S earlier parts) {truth : Unit → Check Bool}
    (htruth : truthSide? family side parts = some truth) : Alike S earlier (truth ()) := by
  unfold truthSide? at htruth
  split at htruth <;> cases htruth
  · exact hparts.comparison
  · exact hparts.negation
  · exact hparts.logic

theorem alike_invalidSide (family : Family) (side : Node) :
    Alike S earlier (invalidSide family operator side) :=
  alike_misfit _ _ _

theorem alike_comparedVariable (h : Relates S M) (family : Family) (side : Node) {x : String}
    (hx : M (.read x)) : Alike S earlier (comparedVariable i family operator side x) := by
  refine (alike_variableType h hx).bind fun type => ?_
  exact .ite (alike_misfit _ _ _) (.ite (alike_misfit _ _ _)
    (.ite (alike_invalidSide _ _) (alike_pure _)))

theorem alike_comparedLeft (h : Relates S M) (family : Family) (hl : ∀ a ∈ l.mentions, M a)
    {parts : TruthParts} (hparts : PartsAlike S earlier parts) :
    Alike S earlier (comparedLeft i family operator l parts) := by
  obtain ⟨hsigned, harithmetic⟩ :
      NumberAlike S earlier (signed i l) ∧ NumberAlike S earlier (arithmetic i l) :=
    numbersAlike h l hl
  unfold comparedLeft
  split
  · rename_i truth htruth
    exact (alike_truthSide? hparts htruth).bind fun _ => alike_pure _
  · split
    · split
      · exact alike_pure _
      · exact (alike_invalidSide _ _).bind fun _ => alike_pure _
    · exact alike_misfit _ _ _
    · exact (harithmetic _).bind fun _ => alike_pure _
    · exact (hsigned _).bind fun _ => alike_pure _
    · exact (alike_comparedVariable h _ _ (hl _ (List.mem_singleton_self _))).bind
        fun _ => alike_pure _
    · exact (alike_invalidSide _ _).bind fun _ => alike_pure _

theorem alike_settledLeft (type : Option String) : Alike S earlier (settledLeft type) := by
  cases type with
  | some t => exact alike_pure t
  | none => exact alike_throw _

theorem alike_comparedNumber (leftType : String) (r : Node)
    {inner : String → Check (String × Bool)} (h : NumberAlike S earlier inner)
    (problem : String → String → TypeProblem) :
    Alike S earlier (comparedNumber leftType r inner problem) :=
  .ite ((h _).bind fun _ => .ite (alike_misfit _ _ _) (alike_pure _)) (alike_throw _)

theorem alike_equatedTruth (leftType : String) (r : Node) (leftFits : Bool)
    {leftLogic : Unit → Check Bool} (hleft : Alike S earlier (leftLogic ())) {parts : TruthParts}
    (hparts : PartsAlike S earlier parts) :
    Alike S earlier (equatedTruth operator leftType r leftFits leftLogic parts) := by
  unfold equatedTruth
  split
  · exact .ite (alike_misfit _ _ _) (hparts.comparison.bind fun _ => alike_pure _)
  · exact .ite (alike_misfit _ _ _) (hparts.negation.bind fun _ => alike_pure _)
  · exact .ite (hleft.bind fun _ => alike_pure _) (alike_misfit _ _ _)

theorem alike_comparedRight (h : Relates S M) (family : Family) (hr : ∀ a ∈ r.mentions, M a)
    (leftType : Option String) (leftFits : Bool) {leftLogic : Unit → Check Bool}
    (hleft : Alike S earlier (leftLogic ())) {parts : TruthParts}
    (hparts : PartsAlike S earlier parts) :
    Alike S earlier (comparedRight i family operator r leftType leftFits leftLogic parts) := by
  obtain ⟨hsigned, harithmetic⟩ :
      NumberAlike S earlier (signed i r) ∧ NumberAlike S earlier (arithmetic i r) :=
    numbersAlike h r hr
  have hsettled : Alike S earlier (settledLeft leftType) := alike_settledLeft leftType
  unfold comparedRight
  split
  · exact hsettled.bind fun _ => alike_equatedTruth _ _ _ hleft hparts
  · split
    · split
      · refine hsettled.bind fun _ => Alike.bind ?_ fun _ => alike_pure _
        exact .ite (alike_misfit _ _ _) (alike_pure _)
      · exact (alike_invalidSide _ _).bind fun _ => alike_pure _
    · exact alike_misfit _ _ _
    · exact hsettled.bind fun _ => (alike_comparedNumber _ _ harithmetic _).bind
        fun _ => alike_pure _
    · exact hsettled.bind fun _ => (alike_comparedNumber _ _ hsigned _).bind fun _ => alike_pure _
    · refine (alike_comparedVariable h _ _ (hr _ (List.mem_singleton_self _))).bind fun type => ?_
      cases type with
      | some type => exact hsettled.bind fun _ => .ite (alike_throw _) (alike_pure _)
      | none => exact alike_pure _
    · exact (alike_invalidSide _ _).bind fun _ => alike_pure _

theorem alike_bothCompared (h : Relates S M) (hl : ∀ a ∈ l.mentions, M a)
    (hr : ∀ a ∈ r.mentions, M a) {left right : TruthParts} (hleft : PartsAlike S earlier left)
    (hright : PartsAlike S earlier right) :
    Alike S earlier (bothCompared i operator l r left right) :=
  (alike_comparedLeft h _ hl hleft).bind fun _ =>
    (alike_comparedRight h _ hr _ _ hleft.logic hright).bind fun _ => alike_pure _

theorem alike_logic_of_leaf {n : Node} (h : n.left = n.lacks "left") :
    Alike S earlier (logic i n) := by
  cases n with
  | arithmetic | comparison | logic => cases h
  | _ => exact alike_ofExcept _

theorem alike_comparison_of_leaf {n : Node} (h : n.left = n.lacks "left") :
    Alike S earlier (comparison i n) := by
  cases n with
  | arithmetic | comparison | logic => cases h
  | _ => exact alike_ofExcept _

theorem alike_negation_of_leaf {n : Node} (h : n.operand = n.lacks "node") :
    Alike S earlier (negation i n) := by
  cases n with
  | signed | negation => cases h
  | _ => exact alike_ofExcept _

/-- A node can be checked as an operation with `and` or `or`, as a comparison and as a negation. -/
theorem truthsAlike (h : Relates S M) : ∀ n : Node, (∀ a ∈ n.mentions, M a) →
    PartsAlike S earlier ⟨fun _ => logic i n, fun _ => comparison i n, fun _ => negation i n⟩
  | .logic op l r, hn | .comparison op l r, hn | .arithmetic op l r, hn => by
    obtain ⟨hl, hr⟩ := List.forall_mem_append.mp hn
    have hleft := truthsAlike h l hl
    have hright := truthsAlike h r hr
    refine ⟨?_, ?_, alike_negation_of_leaf rfl⟩
    · rw [logic]
      exact alike_bothTruths h hl hr hleft hright
    · rw [comparison]
      exact alike_bothCompared h hl hr hleft hright
  | .negation o, hn | .signed op o, hn => by
    have ho : ∀ a ∈ o.mentions, M a := hn
    refine ⟨alike_logic_of_leaf rfl, alike_comparison_of_leaf rfl, ?_⟩
    rw [negation]
    exact alike_negationOperand h _ ho (truthsAlike h o ho)
  | .empty _, _ | .literal .., _ | .identifier .., _ | .assignment .., _ | .declaration .., _
  | .call .., _ | .otherwise _, _ | .conditional .., _ | .loop .., _ | .block .., _
  | .program .., _ | .breakLoop, _ | .continueLoop, _ | .bare, _ | .raw _, _ =>
    ⟨alike_logic_of_leaf rfl, alike_comparison_of_leaf rfl, alike_negation_of_leaf rfl⟩

theorem alike_condition (h : Relates S M) {c : Node} (hc : ∀ a ∈ c.mentions, M a) :
    Alike S earlier (condition i c) := by
  have htruths : PartsAlike S earlier
      ⟨fun _ => logic i c, fun _ => comparison i c, fun _ => negation i c⟩ :=
    truthsAlike h c hc
  unfold condition
  split
  · exact alike_pure _
  · exact htruths.negation.bind fun _ => alike_pure _
  · exact htruths.logic.bind fun _ => alike_pure _
  · exact htruths.comparison.bind fun _ => alike_pure _
  · refine (alike_variableType h (hc _ (List.mem_singleton_self _))).bind fun type => ?_
    exact .ite (alike_report _ _) (.ite (alike_report _ _) (.ite (alike_pure _) (alike_report _ _)))
  · exact alike_report _ _

/-! ## Programs -/

theorem alike_initialOther (type : String) (v : Node) : Alike S earlier (initialOther type v) :=
  alike_labelledMisfit _ _ _ _

theorem alike_initialVariable (h : Relates S M) (type shown : String) {x : String}
    (hx : M (.read x)) (v : Node) : Alike S earlier (initialVariable i type shown x v) := by
  refine (alike_variableType h hx).bind fun actual => ?_
  exact .ite (alike_misfit _ _ _) (.ite (alike_misfit _ _ _) (alike_pure _))

theorem alike_initialNumber (h : Relates S M) (type : String) (kind : LiteralKind) {v : Node}
    (hv : ∀ a ∈ v.mentions, M a) : Alike S earlier (initialNumber i type kind v) := by
  obtain ⟨hsigned, harithmetic⟩ :
      NumberAlike S earlier (signed i v) ∧ NumberAlike S earlier (arithmetic i v) :=
    numbersAlike h v hv
  unfold initialNumber
  split
  · exact (hsigned _).bind fun _ => alike_pure _
  · exact .ite (alike_pure _) (alike_initialOther _ _)
  · exact alike_pure _
  · exact alike_initialVariable h _ _ (hv _ (List.mem_singleton_self _)) _
  · exact (harithmetic _).bind fun _ => alike_pure _
  · exact alike_initialOther _ _

theorem alike_initialTruth (h : Relates S M) {v : Node} (hv : ∀ a ∈ v.mentions, M a) :
    Alike S earlier (initialTruth i v) := by
  have htruths : PartsAlike S earlier
      ⟨fun _ => logic i v, fun _ => comparison i v, fun _ => negation i v⟩ :=
    truthsAlike h v hv
  unfold initialTruth
  split
  · exact alike_pure _
  · exact alike_pure _
  · exact alike_initialVariable h _ _ (hv _ (List.mem_singleton_self _)) _
  · exact htruths.logic
  · exact htruths.comparison
  · exact htruths.negation
  · exact alike_initialOther _ _

theorem alike_declaration (h : Relates S M) {x type : String} {isMutable : Bool} {v : Node}
    (hn : ∀ a ∈ (Node.declaration x type isMutable v).mentions, M a) :
    Alike S earlier (declaration i (.declaration x type isMutable v)) := by
  obtain ⟨hx, hv⟩ := List.forall_mem_cons.mp hn
  by_cases htype : isChecked type
  · rw [declaration_eq htype]
    have hinitial : Alike S earlier (initial i type v) :=
      .ite (alike_initialNumber h _ _ hv)
        (.ite (alike_initialNumber h _ _ hv) (alike_initialTruth h hv))
    refine hinitial.bind fun fits => .ite ?_ (alike_pure _)
    exact fun s s' hs => ⟨rfl, h.define hx hs.scopes i _, hs.reports⟩
  · rw [declaration_of_unchecked htype]
    exact alike_pure _

/-- Only programs and blocks can be checked. -/
theorem program_of_lacks {n : Node} (h : n.scope = n.lacks "scope") :
    program n = ofExcept (n.lacks "scope") := by
  cases n with
  | block | program => cases h
  | _ => rfl

mutual

/-- **A program is checked in the same way on both sides.** -/
theorem alike_program (h : Relates S M) : ∀ n : Node, (∀ a ∈ n.mentions, M a) →
    Alike S earlier (program n)
  | .block ss i, hn | .program ss i, hn => by
    rw [program]
    exact alike_statements h ss hn
  | .empty _, _ | .literal .., _ | .identifier .., _ | .signed .., _ | .negation _, _
  | .logic .., _ | .comparison .., _ | .arithmetic .., _ | .assignment .., _ | .declaration .., _
  | .call .., _ | .otherwise _, _ | .conditional .., _ | .loop .., _ | .breakLoop, _
  | .continueLoop, _ | .bare, _ | .raw _, _ => by
    rw [program_of_lacks rfl]
    exact alike_ofExcept _

theorem alike_statements (h : Relates S M) {i : ScopeId} : ∀ ss : List Node,
    (∀ a ∈ Node.mentionsAll ss, M a) → Alike S earlier (statements i ss)
  | [], _ => alike_pure _
  | .conditional bs o :: rest, hn => by
    obtain ⟨hs, hrest⟩ := List.forall_mem_append.mp hn
    obtain ⟨hbs, -⟩ := List.forall_mem_append.mp hs
    rw [statements]
    exact (alike_branches h bs hbs).bind fun _ => alike_statements h rest hrest
  | .declaration x t m v :: rest, hn => by
    obtain ⟨hs, hrest⟩ := List.forall_mem_append.mp hn
    rw [statements]
    exact (alike_declaration h hs).bind fun _ => alike_statements h rest hrest
  | .empty _ :: rest, hn | .literal .. :: rest, hn | .identifier .. :: rest, hn
  | .signed .. :: rest, hn | .negation _ :: rest, hn | .logic .. :: rest, hn
  | .comparison .. :: rest, hn | .arithmetic .. :: rest, hn | .assignment .. :: rest, hn
  | .call .. :: rest, hn | .otherwise _ :: rest, hn | .loop .. :: rest, hn | .block .. :: rest, hn
  | .program .. :: rest, hn | .breakLoop :: rest, hn | .continueLoop :: rest, hn
  | .bare :: rest, hn | .raw _ :: rest, hn => by
    rw [statements_of_passedOver rfl]
    exact alike_statements h rest (List.forall_mem_append.mp hn).2

theorem alike_branches (h : Relates S M) {i : ScopeId} : ∀ bs : List (Node × Node),
    (∀ a ∈ Node.mentionsBranches bs, M a) → Alike S earlier (branches i bs)
  | [], _ => alike_pure _
  | (c, b) :: rest, hn => by
    obtain ⟨hc, hb⟩ := List.forall_mem_append.mp hn
    obtain ⟨hb, hrest⟩ := List.forall_mem_append.mp hb
    rw [branches]
    exact (alike_condition h hc).bind fun _ => (alike_program h b hb).bind
      fun _ => alike_branches h rest hrest

end

end

end Scriptlet.Check
