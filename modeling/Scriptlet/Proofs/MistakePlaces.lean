import Scriptlet.Proofs.ReaderCalls

/-! # Where mistakes are reported

Ten places in the grammar declare a mistake. Which of the calls that are made on the way does so,
and in which state, is written down as a relation (`Parse.Declares`), as the calls themselves are
(`Parse.Makes`). Every report of a program comes of such a declaration (`Parse.Accounts`), and the
report is made of the state that reading is in then.

The place that is reported is that of the token before the current one, whatever the current one is;
before the first token stands the last one.
-/
namespace Scriptlet

open ParseState

namespace Parse

/-! ## Declaring a mistake -/

/-- The tokens that a part without operators can begin with. -/
def primitiveStarts : List TokenKind :=
  [.number, .text, .trueWord, .falseWord, .noneWord, .leftParen, .identifier]

/-- The tokens that a statement can begin with, by the kinds of statements. -/
def statementStarts : List (List TokenKind) :=
  [[.varWord, .letWord], [.identifier], [.ifWord], [.whileWord], [.loopWord], [.breakWord],
    [.continueWord]]

/-- The call declares the mistake when reading has come to the given state. -/
inductive Declares : Call × ParseState → GrammarProblem → ParseState → Prop
  | unexpectedPrimitive {n s} (h : ∀ kind ∈ primitiveStarts, accept [kind] s = .ok false s) :
      Declares (.primitive (n + 1), s) .unexpectedPrimitive s
  | openParenthesis {n s s₁ s₂} {node : Node} (h : accept [.leftParen] s = .ok true s₁)
      (hnode : expression n .disjunction s₁ = .ok node s₂)
      (hclose : accept [.rightParen] s₂ = .ok false s₂) :
      Declares (.primitive (n + 1), s) .openParenthesis s₂
  | openCall {n s s₁} {arg : Node} (harg : expression n .disjunction s = .ok arg s₁)
      (hcomma : accept [.comma] s₁ = .ok false s₁)
      (hclose : accept [.rightParen] s₁ = .ok false s₁) :
      Declares (.arguments (n + 1), s) .openCall s₁
  | missingAssignment {n s} (h : accept [.assign] s = .ok false s)
      (hcompound : ∀ entry ∈ compoundAssignments, accept [entry.1] s = .ok false s) :
      Declares (.assignment n, s) .missingAssignment s
  | missingName {n s} {type : String} {m : Bool} (h : accept [.identifier] s = .ok false s) :
      Declares (.declarator n type m, s) .missingName s
  | missingInitializer {n s s₁} {type : String} {m : Bool}
      (h : accept [.identifier] s = .ok true s₁) (hassign : accept [.assign] s₁ = .ok false s₁)
      (hsemicolon : check .semicolon s₁ = .ok false s₁)
      (hcomma : check .comma s₁ = .ok false s₁) :
      Declares (.declarator n type m, s) .missingInitializer s₁
  | missingType {n s} {before : Pos}
      (h : accept [.intWord, .floatWord, .stringWord, .boolWord] s = .ok false s) :
      Declares (.declaration n before, s) .missingType s
  | unexpectedStatement {n scope s} (h : ∀ kinds ∈ statementStarts, accept kinds s = .ok false s) :
      Declares (.statement (n + 1) scope, s) .unexpectedStatement s
  | missingBlock {n scope s} (h : accept [.leftBrace] s = .ok false s) :
      Declares (.block (n + 1) scope, s) .missingBlock s
  | openBlock {n scope s} (h : accept [.semicolon] s = .ok false s) (hend : atEnd s = .ok true s) :
      Declares (.blockBody (n + 1) scope, s) .openBlock s

/-- The mistake is declared in one of the calls that come of the given one. -/
def Declared (p : Call × ParseState) (problem : GrammarProblem) (s : ParseState) : Prop :=
  ∃ q, Relation.ReflTransGen Makes p q ∧ Declares q problem s

/-! ## Reports and where they come from -/

/-- **All reports between two states are accounted for**: each was declared in a call that comes of
the given one, in a state with the reports before it, at the place of the token before the current
one. -/
structure Accounts (p : Call × ParseState) (t t' : ParseState) : Prop where
  kept : t.reports <+: t'.reports
  declared : ∀ before d, t.reports <+: before → before ++ [d] <+: t'.reports →
    ∃ problem s pos, Declared p problem s ∧ s.reports = before ∧ place s = .ok pos s ∧
      d = .grammar problem pos

namespace Accounts

variable {p q : Call × ParseState} {t t' t'' : ParseState}

theorem of_reports_eq (h : t'.reports = t.reports) : Accounts p t t' := by
  refine ⟨h ▸ List.prefix_rfl, fun before d hbefore hd => ?_⟩
  have hlong := hd.length_le
  have hshort := hbefore.length_le
  rw [h, List.length_append, List.length_singleton] at hlong
  omega

theorem trans (h : Accounts p t t') (h' : Accounts p t' t'') : Accounts p t t'' := by
  refine ⟨h.kept.trans h'.kept, fun before d hbefore hd => ?_⟩
  -- the report is one of the first part or of the second
  rcases List.prefix_or_prefix_of_prefix hd h'.kept with hfirst | hsecond
  · exact h.declared before d hbefore hfirst
  · rcases List.prefix_concat_iff.mp hsecond with heq | hsecond
    · exact h.declared before d hbefore (heq ▸ List.prefix_rfl)
    · exact h'.declared before d hsecond hd

theorem of_makes (hpq : Makes p q) (h : Accounts q t t') : Accounts p t t' := by
  refine ⟨h.kept, fun before d hbefore hd => ?_⟩
  obtain ⟨problem, s, pos, ⟨r, hr, hdeclares⟩, hs⟩ := h.declared before d hbefore hd
  exact ⟨problem, s, pos, ⟨r, .head hpq hr, hdeclares⟩, hs⟩

end Accounts

variable {α β : Type} {p q : Call × ParseState} {t : ParseState}

/-- All reports of a reader are accounted for, seen from the state that it began in. -/
def Accounted (p : Call × ParseState) (t : ParseState) (r : EStateM.Result Fault ParseState α) :
    Prop :=
  Accounts p t (lastState r)

namespace Accounted

variable {x y : Parse α} {f : α → Parse β}

theorem pure (a : α) : Accounted p t ((Pure.pure a : Parse α) t) := .of_reports_eq rfl

theorem throw (fault : Fault) : Accounted p t ((MonadExcept.throw fault : Parse α) t) :=
  .of_reports_eq rfl

theorem ofExcept (e : Except Fault α) : Accounted p t (Parse.ofExcept e t) := by
  cases e with
  | ok a => exact pure a
  | error fault => exact throw fault

theorem bind (hx : Accounted p t (x t))
    (hf : ∀ a t', x t = .ok a t' → Accounted p t' (f a t')) : Accounted p t ((x >>= f) t) := by
  unfold Accounted at hx ⊢
  cases h : x t with
  | ok a t' =>
    rw [h] at hx
    rw [EStateM.bind_of_ok h]
    exact hx.trans (hf a t' h)
  | error e t' =>
    rw [h] at hx
    rw [EStateM.bind_of_error h]
    exact hx

/-- A reader that is called. -/
theorem of_makes {r : EStateM.Result Fault ParseState α} (hpq : Makes p q) (h : Accounted q t r) :
    Accounted p t r :=
  Accounts.of_makes hpq h

end Accounted

/-! ## Readers that report nothing -/

/-- The reader leaves the state as it is, with a result or with a fault. -/
def Peeks (x : Parse α) : Prop :=
  ∀ t, (∃ a, x t = .ok a t) ∨ ∃ fault, x t = .error fault t

theorem Peeks.bind {x : Parse α} {f : α → Parse β} (hx : Peeks x) (hf : ∀ a, Peeks (f a)) :
    Peeks (x >>= f) := by
  intro t
  rcases hx t with ⟨a, ha⟩ | ⟨fault, hfault⟩
  · rw [EStateM.bind_of_ok ha]
    exact hf a t
  · exact .inr ⟨fault, EStateM.bind_of_error hfault⟩

theorem peeks_pure (a : α) : Peeks (pure a : Parse α) := fun _ => .inl ⟨a, rfl⟩

theorem peeks_look (g : Cursor → Except Fault α) : Peeks (look g) := by
  intro t
  rw [look_apply]
  cases g t.cursor with
  | ok a => exact .inl ⟨a, rfl⟩
  | error fault => exact .inr ⟨fault, rfl⟩

theorem peeks_check (kind : TokenKind) : Peeks (check kind) := by
  refine (peeks_look _).bind fun b => ?_
  cases b with
  | true => exact peeks_pure false
  | false => exact (peeks_look _).bind fun _ => peeks_pure _

theorem outcome_advance (t : ParseState) :
    (∃ b t', advance t = .ok b t' ∧ t'.reports = t.reports) ∨
      ∃ fault, advance t = .error fault t := by
  rw [advance, atEnd]
  rcases peeks_look Cursor.atEnd t with ⟨b, hb⟩ | ⟨fault, hfault⟩
  · rw [EStateM.bind_of_ok hb]
    cases b with
    | true => exact .inl ⟨false, t, rfl, rfl⟩
    | false => exact .inl ⟨true, _, rfl, rfl⟩
  · exact .inr ⟨fault, EStateM.bind_of_error hfault⟩

/-- A token that is not of the kinds is left; no reports come of a token that is. -/
theorem outcome_accept (kinds : List TokenKind) (t : ParseState) :
    accept kinds t = .ok false t ∨
      (∃ t', accept kinds t = .ok true t' ∧ t'.reports = t.reports) ∨
      ∃ fault, accept kinds t = .error fault t := by
  induction kinds with
  | nil => exact .inl rfl
  | cons kind kinds ih =>
    rw [accept]
    rcases peeks_check kind t with ⟨b, hb⟩ | ⟨fault, hfault⟩
    · rw [EStateM.bind_of_ok hb]
      cases b with
      | true =>
        rcases outcome_advance t with ⟨moved, t', ht', hreports⟩ | ⟨fault, hfault⟩
        · exact .inr (.inl ⟨t', EStateM.bind_of_ok ht', hreports⟩)
        · exact .inr (.inr ⟨fault, EStateM.bind_of_error hfault⟩)
      | false => exact ih
    · exact .inr (.inr ⟨fault, EStateM.bind_of_error hfault⟩)

theorem reports_synchronize (t : ParseState) : (lastState (synchronize t)).reports = t.reports := by
  rw [synchronize, EStateM.bind_of_ok (EStateM.get_apply t)]
  cases (t.cursor.tokens.toList.drop t.cursor.index).findIdx?
      fun t => t.kind = .endOfFile || resumesAt t.kind with
  | some i => rfl
  | none => rfl

/-- What was expected has been found. -/
theorem accept_of_expect {kind : TokenKind} {problem : GrammarProblem} {t t' : ParseState}
    (h : expect kind problem t = .ok true t') : accept [kind] t = .ok true t' := by
  obtain ⟨b, t₁, hb, hgo⟩ := EStateM.bind_eq_ok.mp h
  cases b with
  | true =>
    obtain ⟨-, rfl⟩ := EStateM.pure_eq_ok.mp hgo
    exact hb
  | false =>
    obtain ⟨_, _, -, hgo⟩ := EStateM.bind_eq_ok.mp hgo
    cases hgo

namespace Accounted

variable {x y : Parse α} {f : α → Parse β}

theorem peek (hx : Peeks x) (hf : ∀ a, x t = .ok a t → Accounted p t (f a t)) :
    Accounted p t ((x >>= f) t) := by
  rcases hx t with ⟨a, ha⟩ | ⟨fault, hfault⟩
  · rw [EStateM.bind_of_ok ha]
    exact hf a ha
  · rw [EStateM.bind_of_error hfault]
    exact .of_reports_eq rfl

theorem look {g : Cursor → Except Fault α}
    (hf : ∀ a, Parse.look g t = .ok a t → Accounted p t (f a t)) :
    Accounted p t ((Parse.look g >>= f) t) :=
  peek (peeks_look g) hf

/-- A branch on whether the current token is of the given kind. -/
theorem check {kind : TokenKind} (hyes : Accounted p t (x t))
    (hno : Parse.check kind t = .ok false t → Accounted p t (y t)) :
    Accounted p t ((Parse.check kind >>= fun b => if b = true then x else y) t) := by
  refine peek (peeks_check kind) fun b hb => ?_
  cases b with
  | true => exact hyes
  | false => exact hno hb

/-- A branch on whether a token of one of the given kinds was passed over. -/
theorem accept {kinds : List TokenKind}
    (hyes : ∀ t', Parse.accept kinds t = .ok true t' → Accounted p t' (x t'))
    (hno : Parse.accept kinds t = .ok false t → Accounted p t (y t)) :
    Accounted p t ((Parse.accept kinds >>= fun b => if b = true then x else y) t) := by
  rcases outcome_accept kinds t with hkept | ⟨t', ht', hreports⟩ | ⟨fault, hfault⟩
  · rw [EStateM.bind_of_ok hkept]
    exact hno hkept
  · rw [EStateM.bind_of_ok ht']
    exact (Accounts.of_reports_eq hreports).trans (hyes t' ht')
  · rw [EStateM.bind_of_error hfault]
    exact .of_reports_eq rfl

/-- **A mistake that the call declares is accounted for.** -/
theorem declareError {problem : GrammarProblem} (h : Declares p problem t) :
    Accounted p t (Parse.declareError problem t) := by
  refine look fun pos hpos => ?_
  have hlast := reports_synchronize { t with reports := t.reports ++ [.grammar problem pos] }
  refine ⟨hlast ▸ List.prefix_append _ _, fun before d hbefore hd => ?_⟩
  rcases List.prefix_concat_iff.mp (hlast ▸ hd) with heq | hshort
  · obtain ⟨rfl, hsame⟩ := List.append_inj' heq rfl
    exact ⟨problem, t, pos, ⟨p, .refl, h⟩, rfl, hpos, List.singleton_inj.mp hsame⟩
  · have hlong := hshort.length_le
    have hle := hbefore.length_le
    rw [List.length_append, List.length_singleton] at hlong
    omega

/-- A mistake, and a result in its place. -/
theorem declare {problem : GrammarProblem} {a : α} (h : Declares p problem t) :
    Accounted p t ((Parse.declareError problem >>= fun _ => Pure.pure a) t) :=
  (declareError h).bind fun _ _ _ => pure a

theorem expect {kind : TokenKind} {problem : GrammarProblem}
    (h : Parse.accept [kind] t = .ok false t → Declares p problem t) :
    Accounted p t (Parse.expect kind problem t) :=
  accept (fun _ _ => pure true) fun hno => declare (h hno)

end Accounted

/-! ## Expressions -/

/-- The reports of all readers of expressions, with a given budget. -/
structure ExpressionsAccounted (n : Nat) : Prop where
  expression : ∀ l t, Accounted (.expression n l, t) t (expression n l t)
  chain : ∀ l left t, Accounted (.chain n l left, t) t (chain n l left t)
  primitive : ∀ t, Accounted (.primitive n, t) t (primitive n t)
  call : ∀ t, Accounted (.call n, t) t (call n t)
  arguments : ∀ t, Accounted (.arguments n, t) t (arguments n t)

namespace ExpressionsAccounted

variable {n : Nat}

/-- A level with operators between its parts. -/
theorem expression_chained (ih : ExpressionsAccounted n) {l : Level} (hl : l.operators ≠ [])
    (t : ParseState) :
    Accounted (.expression (n + 1) l, t) t ((Parse.expression n l.next >>= Parse.chain n l) t) := by
  have hleft := (ih.expression l.next t).of_makes (.inExpression (.nextLevel hl))
  exact hleft.bind fun left t' h =>
    (ih.chain l left t').of_makes (.inExpression (.operators hl h))

theorem expression_succ (ih : ExpressionsAccounted n) (l : Level) (t : ParseState) :
    Accounted (.expression (n + 1) l, t) t (Parse.expression (n + 1) l t) := by
  cases l with
  | negation =>
    refine .accept (fun t' h => ?_) fun h =>
      .of_makes (.inExpression (.belowNot h)) (ih.expression _ t)
    have hoperand := (ih.expression .negation t').of_makes (.inExpression (.notOperand h))
    exact hoperand.bind fun _ _ _ => .ofExcept _
  | sign =>
    refine .accept (fun t' h => .look fun operator _ => ?_) fun h =>
      .of_makes (.inExpression (.belowSign h)) (ih.expression _ t)
    have hoperand := (ih.expression .sign t').of_makes (.inExpression (.signOperand h))
    exact hoperand.bind fun _ _ _ => .ofExcept _
  | primitive => exact (ih.primitive t).of_makes (.inExpression .atom)
  | disjunction | conjunction | equality | comparison | sum | product | power =>
    exact ih.expression_chained (by decide) t

theorem chain_succ (ih : ExpressionsAccounted n) (l : Level) (left : Node) (t : ParseState) :
    Accounted (.chain (n + 1) l left, t) t (Parse.chain (n + 1) l left t) := by
  refine .accept (fun t₁ h => .look fun operator hoperator => ?_) fun _ => .pure left
  refine ((ih.expression _ t₁).of_makes (.inExpression (.rightSide h))).bind fun right t₂ hr => ?_
  cases hnode : l.join operator left right with
  | ok node => exact (ih.chain l node t₂).of_makes (.inExpression (.chained h hoperator hr hnode))
  | error fault => exact .throw fault

theorem primitive_succ (ih : ExpressionsAccounted n) (t : ParseState) :
    Accounted (.primitive (n + 1), t) t (Parse.primitive (n + 1) t) := by
  refine .look fun before _ => .accept (fun _ _ => .look fun _ _ => .pure _) fun hnumber => ?_
  refine .accept (fun _ _ => .look fun _ _ => .pure _) fun htext => ?_
  refine .accept (fun _ _ => .look fun _ _ => .pure _) fun htrue => ?_
  refine .accept (fun _ _ => .look fun _ _ => .pure _) fun hfalse => ?_
  refine .accept (fun _ _ => .pure _) fun hnone => .accept (fun t₁ h => ?_) fun hparen => ?_
  · have hnode := (ih.expression .disjunction t₁).of_makes (.inExpression (.group h))
    refine hnode.bind fun node t₂ hn => ?_
    refine (Accounted.expect fun hclose => .openParenthesis h hn hclose).bind fun found t₃ _ => ?_
    cases found with
    | true => exact .pure node
    | false => exact .pure _
  refine .accept (fun t₁ h => ?_) fun hname => ?_
  · refine .accept (fun t₂ h' => ?_) fun _ => .look fun _ _ => .pure _
    exact (ih.call t₂).of_makes (.inExpression (.nameCall h h'))
  · refine .declare (.unexpectedPrimitive fun kind hkind => ?_)
    simp only [primitiveStarts, List.mem_cons, List.not_mem_nil, or_false] at hkind
    rcases hkind with rfl | rfl | rfl | rfl | rfl | rfl | rfl <;> assumption

theorem call_succ (ih : ExpressionsAccounted n) (t : ParseState) :
    Accounted (.call (n + 1), t) t (Parse.call (n + 1) t) := by
  refine .look fun callee _ => ?_
  refine ((ih.arguments t).of_makes (.inExpression .callArguments)).bind fun args? t' _ => ?_
  cases args? with
  | some args => exact .pure _
  | none => exact .look fun _ _ => .pure _

theorem arguments_succ (ih : ExpressionsAccounted n) (t : ParseState) :
    Accounted (.arguments (n + 1), t) t (Parse.arguments (n + 1) t) := by
  have harg := (ih.expression .disjunction t).of_makes (.inExpression .argument)
  refine harg.bind fun arg t₁ h => .accept (fun t₂ hcomma => ?_) fun hcomma => ?_
  · have hmore := (ih.arguments t₂).of_makes (.inExpression (.moreArguments h hcomma))
    exact hmore.bind fun _ _ _ => .pure _
  · exact .accept (fun _ _ => .pure _) fun hclose => .declare (.openCall h hcomma hclose)

theorem all : ∀ n, ExpressionsAccounted n
  | 0 => ⟨fun _ _ => .throw _, fun _ _ _ => .throw _, fun _ => .throw _, fun _ => .throw _,
      fun _ => .throw _⟩
  | n + 1 =>
    have ih := all n
    ⟨ih.expression_succ, ih.chain_succ, ih.primitive_succ, ih.call_succ, ih.arguments_succ⟩

end ExpressionsAccounted

variable {n : Nat}

/-- An expression that a call reads. -/
theorem accounted_expression (l : Level) (h : Makes p (.expression n l, t)) :
    Accounted p t (expression n l t) :=
  ((ExpressionsAccounted.all n).expression l t).of_makes h

/-! ## Statements -/

/-- Besides that the reports are accounted for: none of the kinds is there if there is no result. -/
theorem accounted_compoundValue (n : Nat) (name : String) (t : ParseState) :
    ∀ ops : List (TokenKind × Arithmetic),
      Accounted (.compoundValue n name ops, t) t (compoundValue n name ops t) ∧
      ∀ t', compoundValue n name ops t = .ok none t' →
        t' = t ∧ ∀ entry ∈ ops, accept [entry.1] t = .ok false t
  | [] => by
    refine ⟨.pure none, fun t' h => ?_⟩
    obtain ⟨-, rfl⟩ := EStateM.pure_eq_ok.mp h
    exact ⟨rfl, fun _ hentry => absurd hentry List.not_mem_nil⟩
  | (kind, op) :: ops => by
    obtain ⟨hrest, hnone⟩ := accounted_compoundValue n name t ops
    refine ⟨.accept (fun t₁ h => .look fun _ _ => ?_) fun h =>
      hrest.of_makes (.inSimple (.compoundRest h)), fun t' h => ?_⟩
    · refine (accounted_expression _ (.inSimple (.compoundRight h))).bind fun _ t₂ _ => ?_
      exact (Accounted.ofExcept _).bind fun _ _ _ => .pure _
    · obtain ⟨b, t₁, hb, hgo⟩ := EStateM.bind_eq_ok.mp h
      cases b with
      | true =>
        -- behind the operator there is a result, if reading goes on at all
        obtain ⟨_, _, -, hgo⟩ := EStateM.bind_eq_ok.mp hgo
        obtain ⟨_, _, -, hgo⟩ := EStateM.bind_eq_ok.mp hgo
        obtain ⟨_, _, -, hgo⟩ := EStateM.bind_eq_ok.mp hgo
        cases hgo
      | false =>
        have hkept : t₁ = t := by
          rcases outcome_accept [kind] t with hno | ⟨_, hyes, -⟩ | ⟨_, hfault⟩
          · cases hno.symm.trans hb
            rfl
          · cases hyes.symm.trans hb
          · cases hfault.symm.trans hb
        subst hkept
        obtain ⟨rfl, hops⟩ := hnone t' hgo
        exact ⟨rfl, List.forall_mem_cons.mpr ⟨hb, hops⟩⟩

theorem accounted_assignment (n : Nat) (t : ParseState) :
    Accounted (.assignment n, t) t (assignment n t) := by
  refine .look fun name hname => .look fun before _ => .accept (fun t₁ h => ?_) fun h => ?_
  · exact (accounted_expression _ (.inSimple (.assigned h))).bind fun _ _ _ => .ofExcept _
  · obtain ⟨hcompound, hnone⟩ := accounted_compoundValue n name t compoundAssignments
    refine (hcompound.of_makes (.inSimple (.compound hname h))).bind fun value? t₁ hvalue => ?_
    cases value? with
    | some value => exact .ofExcept _
    | none =>
      obtain ⟨rfl, hops⟩ := hnone t₁ hvalue
      exact .declare (.missingAssignment h hops)

theorem accounted_declarator (n : Nat) (type : String) (m : Bool) (t : ParseState) :
    Accounted (.declarator n type m, t) t (declarator n type m t) := by
  refine .look fun before _ => (Accounted.expect fun h => .missingName h).bind fun found t₁ h => ?_
  cases found with
  | false => exact .pure _
  | true =>
    refine .look fun name _ => .accept (fun t₂ hassign => ?_) fun hassign => ?_
    · refine (accounted_expression _ (.inSimple (.initializer h hassign))).bind fun _ _ _ => ?_
      exact .ofExcept _
    · refine .check (.ofExcept _) fun hsemicolon => .check (.ofExcept _) fun hcomma => ?_
      exact .declare (.missingInitializer (accept_of_expect h) hassign hsemicolon hcomma)

theorem accounted_declarators (type : String) (m : Bool) : ∀ (n : Nat) (t : ParseState),
    Accounted (.declarators n type m, t) t (declarators n type m t)
  | 0, _ => .throw _
  | n + 1, t => by
    have hfirst := (accounted_declarator n type m t).of_makes (.inSimple .firstVariable)
    refine hfirst.bind fun first t₁ h => .accept (fun t₂ hcomma => ?_) fun _ => .pure _
    have hmore := (accounted_declarators type m n t₂).of_makes (.inSimple (.moreVariables h hcomma))
    exact hmore.bind fun _ _ _ => .pure _

theorem accounted_declaration (n : Nat) (before : Pos) (t : ParseState) :
    Accounted (.declaration n before, t) t (declaration n before t) := by
  refine .accept (fun t₁ h => .look fun introduced hi => .look fun type htype => ?_) fun h =>
    .declare (.missingType h)
  exact (accounted_declarators type _ n t₁).of_makes (.inSimple (.declared h hi htype))

/-- The reports of all readers of statements, with a given budget. -/
structure StatementsAccounted (n : Nat) : Prop where
  statement : ∀ scope t, Accounted (.statement n scope, t) t (statement n scope t)
  conditional : ∀ scope t, Accounted (.conditional n scope, t) t (conditional n scope t)
  branches : ∀ scope t, Accounted (.branches n scope, t) t (branches n scope t)
  block : ∀ scope t, Accounted (.block n scope, t) t (block n scope t)
  blockBody : ∀ scope t, Accounted (.blockBody n scope, t) t (blockBody n scope t)

namespace StatementsAccounted

theorem statement_succ (ih : StatementsAccounted n) (scope : ScopeId) (t : ParseState) :
    Accounted (.statement (n + 1) scope, t) t (Parse.statement (n + 1) scope t) := by
  rw [Parse.statement]
  refine .look fun before hbefore => .accept (fun t₁ h => ?_) fun hintroduced => ?_
  · exact (accounted_declaration n before t₁).of_makes (.declaration hbefore h)
  refine .accept (fun t₁ h => .accept (fun t₂ h' => ?_) fun h' => ?_) fun hname => ?_
  · have hcall := (ExpressionsAccounted.all n).call t₂
    exact (hcall.of_makes (.callStatement h h')).bind fun _ _ _ => .pure _
  · exact ((accounted_assignment n t₁).of_makes (.assignment h h')).bind fun _ _ _ => .pure _
  refine .accept (fun t₁ h => ?_) fun hif => ?_
  · exact ((ih.conditional scope t₁).of_makes (.ifStatement h)).bind fun _ _ _ => .pure _
  refine .accept (fun t₁ h => ?_) fun hwhile => ?_
  · refine (accounted_expression _ (.whileCondition h)).bind fun _ t₂ hc => ?_
    exact ((ih.block scope t₂).of_makes (.whileBlock h hc)).bind fun _ _ _ => .pure _
  refine .accept (fun t₁ h => .look fun _ _ => ?_) fun hloop => ?_
  · exact ((ih.block scope t₁).of_makes (.loopBlock h)).bind fun _ _ _ => .pure _
  refine .accept (fun _ _ => .pure _) fun hbreak => .accept (fun _ _ => .pure _) fun hcontinue => ?_
  refine .declare (.unexpectedStatement fun kinds hkinds => ?_)
  simp only [statementStarts, List.mem_cons, List.not_mem_nil, or_false] at hkinds
  rcases hkinds with rfl | rfl | rfl | rfl | rfl | rfl | rfl <;> assumption

theorem conditional_succ (ih : StatementsAccounted n) (scope : ScopeId) (t : ParseState) :
    Accounted (.conditional (n + 1) scope, t) t (Parse.conditional (n + 1) scope t) := by
  rw [Parse.conditional]
  refine ((ih.branches scope t).of_makes .firstBranch).bind fun bs t₁ h => ?_
  refine .accept (fun t₂ helse => ?_) fun _ => .look fun _ _ => .pure _
  exact ((ih.block scope t₂).of_makes (.elseBlock h helse)).bind fun _ _ _ => .pure _

theorem branches_succ (ih : StatementsAccounted n) (scope : ScopeId) (t : ParseState) :
    Accounted (.branches (n + 1) scope, t) t (Parse.branches (n + 1) scope t) := by
  rw [Parse.branches]
  refine (accounted_expression _ .branchCondition).bind fun c t₁ h => ?_
  refine ((ih.block scope t₁).of_makes (.branchBlock h)).bind fun b t₂ hb => ?_
  refine .accept (fun t₃ helif => ?_) fun _ => .pure _
  exact ((ih.branches scope t₃).of_makes (.moreBranches h hb helif)).bind fun _ _ _ => .pure _

theorem block_succ (ih : StatementsAccounted n) (scope : ScopeId) (t : ParseState) :
    Accounted (.block (n + 1) scope, t) t (Parse.block (n + 1) scope t) := by
  rw [Parse.block]
  refine .look fun before _ => (Accounted.expect fun h => .missingBlock h).bind fun found t₁ h => ?_
  cases found with
  | false => exact .pure _
  | true =>
    have hopen : Accounted (.block (n + 1) scope, t) t₁ (openScope scope t₁) := .of_reports_eq rfl
    refine hopen.bind fun inner t₂ hinner => ?_
    refine ((ih.blockBody inner t₂).of_makes (.body h hinner)).bind fun statements? t₃ _ => ?_
    cases statements? with
    | some statements => exact .pure _
    | none => exact .pure _

theorem blockBody_succ (ih : StatementsAccounted n) (scope : ScopeId) (t : ParseState) :
    Accounted (.blockBody (n + 1) scope, t) t (Parse.blockBody (n + 1) scope t) := by
  rw [Parse.blockBody]
  refine .accept (fun t₁ h => (ih.blockBody scope t₁).of_makes (.blockSkip h)) fun h => ?_
  refine .look fun ended hend => ?_
  cases ended with
  | true => exact .declare (.openBlock h hend)
  | false =>
    refine .accept (fun _ _ => .pure _) fun hbrace => ?_
    have hfirst := (ih.statement scope t).of_makes (.blockStatement h hend hbrace)
    refine hfirst.bind fun first t₁ hf => ?_
    have hrest := (ih.blockBody scope t₁).of_makes (.blockRest h hend hbrace hf)
    exact hrest.bind fun _ _ _ => .pure _

theorem all : ∀ n, StatementsAccounted n
  | 0 =>
    { statement := fun scope t => by rw [Parse.statement]; exact .throw _
      conditional := fun scope t => by rw [Parse.conditional]; exact .throw _
      branches := fun scope t => by rw [Parse.branches]; exact .throw _
      block := fun scope t => by rw [Parse.block]; exact .throw _
      blockBody := fun scope t => by rw [Parse.blockBody]; exact .throw _ }
  | n + 1 =>
    have ih := all n
    ⟨ih.statement_succ, ih.conditional_succ, ih.branches_succ, ih.block_succ, ih.blockBody_succ⟩

end StatementsAccounted

theorem accounted_programBody : ∀ (n : Nat) (t : ParseState),
    Accounted (.programBody n, t) t (programBody n t)
  | 0, _ => .throw _
  | n + 1, t => by
    refine .accept (fun t₁ h => (accounted_programBody n t₁).of_makes (.programSkip h)) fun h => ?_
    refine .look fun ended hend => ?_
    cases ended with
    | true => exact .pure []
    | false =>
      have hfirst := ((StatementsAccounted.all n).statement Scopes.root t).of_makes
        (.programStatement h hend)
      refine hfirst.bind fun first t₁ hf => ?_
      have hrest := (accounted_programBody n t₁).of_makes (.programRest h hend hf)
      exact hrest.bind fun _ _ _ => .pure _

/-! ## The state in which a mistake is declared -/

/-- A call that has what it needs declares a mistake further on, at a token of the list. -/
theorem Declares.leadsTo {problem : GrammarProblem} {s : ParseState} (h : Declares p problem s)
    (hp : p.1.Fits p.2) : p.2.LeadsTo s := by
  cases h with
  | openParenthesis h hnode =>
    obtain ⟨h₁, hfits⟩ := (Makes.inExpression (.group h)).fits hp
    exact h₁.trans (hfits.returned (congrArg lastState hnode))
  | openCall harg =>
    obtain ⟨-, hfits⟩ := (Makes.inExpression .argument).fits hp
    exact hfits.returned (congrArg lastState harg)
  | missingInitializer h => exact (leadsTo_of_accept hp.ready h).1
  | unexpectedPrimitive | missingAssignment | missingName | missingType | unexpectedStatement
  | missingBlock | openBlock => exact .refl hp.ready

end Parse

open Parse

/-- Reading a program ends where reading its statements does. -/
theorem lastState_parseProgram (tokens : List Token) :
    lastState (parseProgram tokens) =
      lastState (programBody (programBudget tokens.length) (.start tokens)) := by
  have hstart : ParseState.start tokens = between [] tokens {} [] := rfl
  rw [parseProgram_eq, hstart]
  cases h : programBody (programBudget tokens.length) (between [] tokens {} []) with
  | ok ss s => rw [EStateM.bind_of_ok h]; rfl
  | error f s => rw [EStateM.bind_of_error h]; rfl

/-- The place of the current token or, if it marks the end, of the token before it. -/
def offendingPlace (done : List Token) (t : Token) (rest : List Token) : Pos :=
  if t.kind = .endOfFile then placeBefore done (t :: rest) else t.pos

theorem placeBefore_eq_offendingPlace_iff (done : List Token) (t : Token) (rest : List Token) :
    placeBefore done (t :: rest) = offendingPlace done t rest ↔
      t.kind = .endOfFile ∨ placeBefore done (t :: rest) = t.pos := by
  by_cases ht : t.kind = .endOfFile
  · simp [offendingPlace, ht]
  · simp [offendingPlace, ht]

/-- **A mistake is reported at the token before the current one.** Let the last token, and no other,
mark the end. Then every report of a program was declared in one of the calls that reading makes, in
a state with the reports before it, and its place is that of the token that stands before the
current one in that state. This is the place of the current token, or at the end that of the token
before it, exactly if the current token marks the end or has the same place as the one before it. -/
theorem parseProgram_report_places {tokens : List Token} (h : EndsOnce tokens)
    {before : List Diagnostic} {d : Diagnostic}
    (hd : before ++ [d] <+: (lastState (parseProgram tokens)).reports) :
    ∃ problem done t rest σ, tokens = done ++ t :: rest ∧
      Declared (.programBody (programBudget tokens.length), .start tokens) problem
        (between done (t :: rest) σ before) ∧
      d = .grammar problem (placeBefore done (t :: rest)) ∧
      (d = .grammar problem (offendingPlace done t rest) ↔
        t.kind = .endOfFile ∨ placeBefore done (t :: rest) = t.pos) := by
  have hready := ParseState.ready_start h
  have hbudget : 20 * (ParseState.start tokens).ahead + 2 ≤ programBudget tokens.length := by
    rw [ParseState.ahead_start, programBudget]
    omega
  rw [lastState_parseProgram] at hd
  obtain ⟨problem, s, pos, ⟨q, hq, hdeclares⟩, rfl, hpos, rfl⟩ :=
    (accounted_programBody _ (.start tokens)).declared before d List.nil_prefix hd
  obtain ⟨hlead, hfits⟩ := fits_of_makes hq ⟨hready, hbudget, trivial⟩
  have hs := hlead.trans (hdeclares.leadsTo hfits)
  obtain ⟨done, t, rest, σ, rs, rfl, -⟩ := hs.ready.exists_between
  have htokens : tokens = done ++ t :: rest := (List.toArray_inj hs.tokens).symm
  -- the place that is reported is the one that is found in this state
  rw [place_between (List.cons_ne_nil t rest)] at hpos
  injection hpos with hpos
  subst hpos
  refine ⟨problem, done, t, rest, σ, htokens, ⟨q, hq, hdeclares⟩, rfl, ?_⟩
  rw [Diagnostic.grammar.injEq, ← placeBefore_eq_offendingPlace_iff]
  exact ⟨fun heq => heq.2, fun heq => ⟨rfl, heq⟩⟩

/-- The tokens of `var x = 5;`, where the type is missing. -/
def untypedTokens : List Token :=
  [⟨.varWord, .text "var", ⟨1, 3⟩⟩, ⟨.identifier, .text "x", ⟨1, 5⟩⟩, ⟨.assign, .text "=", ⟨1, 7⟩⟩,
    ⟨.number, .int 5, ⟨1, 9⟩⟩, .semicolonAt ⟨1, 9⟩, .endOfFile]

/-- The missing type is reported at the word `var` and not at the name. -/
theorem untypedTokens_report_place :
    EndsOnce untypedTokens ∧
    (lastState (parseProgram untypedTokens)).reports = [.grammar .missingType ⟨1, 3⟩] ∧
    ∃ problem done t rest σ, untypedTokens = done ++ t :: rest ∧
      Declared (.programBody (programBudget untypedTokens.length), .start untypedTokens) problem
        (between done (t :: rest) σ []) ∧
      Diagnostic.grammar .missingType ⟨1, 3⟩ = .grammar problem (placeBefore done (t :: rest)) ∧
      (Diagnostic.grammar .missingType ⟨1, 3⟩ = .grammar problem (offendingPlace done t rest) ↔
        t.kind = .endOfFile ∨ placeBefore done (t :: rest) = t.pos) := by
  have hends : EndsOnce untypedTokens := ⟨untypedTokens.take 5, _, rfl, rfl, by decide⟩
  have hreports : (lastState (parseProgram untypedTokens)).reports =
      [.grammar .missingType ⟨1, 3⟩] := by decide +kernel
  exact ⟨hends, hreports, parseProgram_report_places hends (hreports ▸ List.prefix_rfl)⟩

/-- The tokens of a closing brace alone. -/
def strayBrace : List Token :=
  [⟨.rightBrace, .text "\x7d", ⟨1, 0⟩⟩, .endOfFile]

/-- Whichever token is the current one, the brace is what the report should point at. But before the
first token stands the last one, whose place is reported. -/
theorem strayBrace_not_pointed_at :
    EndsOnce strayBrace ∧
    (lastState (parseProgram strayBrace)).reports = [.grammar .unexpectedStatement ⟨0, 0⟩] ∧
    ∀ done t rest, strayBrace = done ++ t :: rest → offendingPlace done t rest = ⟨1, 0⟩ := by
  refine ⟨⟨strayBrace.take 1, _, rfl, rfl, by decide⟩, by decide +kernel, fun done t rest h => ?_⟩
  rcases done with _ | ⟨u, _ | ⟨v, done⟩⟩
  · obtain ⟨rfl, -⟩ := List.cons.inj h
    rfl
  · obtain ⟨rfl, hrest⟩ := List.cons.inj h
    obtain ⟨rfl, -⟩ := List.cons.inj hrest
    rfl
  · have hlong := congrArg List.length h
    simp [strayBrace] at hlong

end Scriptlet
