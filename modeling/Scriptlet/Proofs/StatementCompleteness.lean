import Scriptlet.Proofs.ExpressionCompleteness

/-! # Statements that the grammar composes are read

If tokens make a sequence of statements, then reading returns exactly these statements, with their
scopes, and reports nothing, or a call in them is exposed, and reading ends with the fault that a call
has no place. The proof goes along the derivation; a budget of twelve for each token is enough here
too.
-/
namespace Scriptlet

open ParseState Parse

variable {t u : Token} {seg : List Token} {e : Node} {σ : Scopes} {rs : List Diagnostic}

/-- An expression is read up to a token that does not go on with it. -/
theorem Spans.expression_becomes {before : Pos}
    (h : Spans before seg (.expression .disjunction e)) (hu : ¬ u.kind.extendsLevel .disjunction)
    {done rest : List Token} {n : Nat} (hb : placeBefore done (seg ++ u :: rest) = before)
    (hn : 12 * seg.length + 9 ≤ n) :
    Becomes e.exposesCall (expression n .disjunction (between done (seg ++ u :: rest) σ rs))
      (.ok e (between (done ++ seg) (u :: rest) σ rs)) :=
  h.isRead.completes hu σ rs hb hn

/-- An expression is read, and asked for its place. -/
theorem Spans.value_becomes {a : Token} (make : Node → Node)
    (h : Spans a.pos seg (.expression .disjunction e)) (hu : ¬ u.kind.extendsLevel .disjunction)
    {done rest : List Token} {n : Nat} (hn : 12 * seg.length + 9 ≤ n) :
    Becomes (e.isCall || e.exposesCall)
      ((expression n .disjunction >>= fun value =>
          Parse.ofExcept (value.pos.map fun _ => make value))
        (between (done ++ [a]) (seg ++ u :: rest) σ rs))
      (.ok (make e) (between (done ++ a :: seg) (u :: rest) σ rs)) := by
  rw [Bool.or_comm]
  refine (h.expression_becomes hu (placeBefore_concat _ _ _) hn).bind fun hexp => ?_
  rw [List.append_assoc, List.singleton_append]
  exact becomes_of_pos (h.pos?_isSome _ _ rfl hexp) _

/-! ## Declarations -/

/-- A variable with its value is read. -/
theorem declarator_initialised {a : Token} {n : Nat} (type : String) (isMutable : Bool)
    (done rest : List Token) (hk : t.kind = .identifier) (ha : a.kind = .assign)
    (value : Spans a.pos seg (.expression .disjunction e))
    (hu : ¬ u.kind.extendsLevel .disjunction) (hn : 12 * seg.length + 9 ≤ n) :
    Becomes (Node.declaration t.text type isMutable e).exposesCall
      (declarator n type isMutable (between done (t :: a :: (seg ++ u :: rest)) σ rs))
      (.ok (.declaration t.text type isMutable e)
        (between (done ++ t :: a :: seg) (u :: rest) σ rs)) := by
  have hassoc : done ++ t :: a :: seg = done ++ [t] ++ a :: seg := by simp
  rw [declarator_between n type isMutable hk, if_pos ha, Node.exposesCall, hassoc]
  exact value.value_becomes (.declaration t.text type isMutable) hu hn

/-- A variable without a value is read before a semicolon or a comma. -/
theorem declarator_bare (n : Nat) (type : String) (isMutable : Bool) (done rest : List Token)
    (hk : t.kind = .identifier) (hu : u.kind = .semicolon ∨ u.kind = .comma) :
    declarator n type isMutable (between done (t :: u :: rest) σ rs) =
      .ok (.declaration t.text type isMutable (.empty (placeBefore done (t :: u :: rest))))
        (between (done ++ [t]) (u :: rest) σ rs) := by
  have ha : u.kind ≠ .assign := by
    rcases hu with hu | hu <;> rw [hu] <;> decide
  rw [declarator_between n type isMutable hk, if_neg ha, if_pos hu]

/-- The variables of a declaration are read, if what follows lets the last one be without a
value. -/
theorem Introduces.isRead {type : String} {isMutable isBare : Bool} {before : Pos} {ds : List Node}
    (h : Introduces type isMutable before seg isBare ds) (hu : u.kind.followsStatement = true)
    (hbare : isBare = true → u.kind = .semicolon) :
    ∀ {done rest : List Token} {n : Nat}, placeBefore done (seg ++ u :: rest) = before →
      12 * seg.length + 12 ≤ n →
      Becomes (Node.exposesCallAny ds)
        (declarators n type isMutable (between done (seg ++ u :: rest) σ rs))
        (.ok ds (between (done ++ seg) (u :: rest) σ rs)) := by
  -- reading goes on to a further variable behind a comma only
  have hcomma : u.kind ≠ .comma := by
    intro hc
    rw [hc] at hu
    cases hu
  induction h with
  | initialised hk ha value =>
    intro done rest n hb hn
    obtain ⟨n, rfl⟩ := Nat.exists_eq_succ_of_ne_zero (show n ≠ 0 by omega)
    simp only [List.length_cons] at hn
    simp only [Node.exposesCallAny, Bool.or_false]
    rw [declarators, List.cons_append, List.cons_append]
    refine (declarator_initialised type isMutable done rest hk ha value
      (TokenKind.not_extendsLevel_of_follows _ hu) (by omega)).next ?_
    rw [accept_one_then (by decide), if_neg hcomma]
    rfl
  | bare hk =>
    intro done rest n hb hn
    obtain ⟨n, rfl⟩ := Nat.exists_eq_succ_of_ne_zero (show n ≠ 0 by omega)
    rw [List.singleton_append] at hb ⊢
    simp only [Node.exposesCallAny, Node.exposesCall, Node.isCall, Bool.or_false]
    rw [declarators,
      EStateM.bind_of_ok (declarator_bare n type isMutable done rest hk (.inl (hbare rfl))),
      accept_one_then (by decide), if_neg hcomma, hb]
    exact Becomes.refl _
  | initialisedMore hk ha value hc' more ih =>
    intro done rest n hb hn
    obtain ⟨n, rfl⟩ := Nat.exists_eq_succ_of_ne_zero (show n ≠ 0 by omega)
    simp only [List.length_cons, List.length_append] at hn
    simp only [List.cons_append, List.append_assoc] at hb ⊢
    rw [declarators, Node.exposesCallAny]
    refine (declarator_initialised type isMutable done _ hk ha value
      (hc' ▸ TokenKind.not_extendsLevel_comma _) (by omega)).bind fun _ => ?_
    rw [accept_one_then (by decide), if_pos hc']
    refine (ih hbare (placeBefore_concat _ _ _) (by omega)).next ?_
    simp only [EStateM.pure_apply, List.append_assoc, List.cons_append, List.nil_append]
  | bareMore hk hc' more ih =>
    intro done rest n hb hn
    obtain ⟨n, rfl⟩ := Nat.exists_eq_succ_of_ne_zero (show n ≠ 0 by omega)
    simp only [List.length_cons] at hn
    simp only [List.cons_append] at hb ⊢
    simp only [Node.exposesCallAny, Node.exposesCall, Node.isCall, Bool.false_or]
    rw [declarators, EStateM.bind_of_ok (declarator_bare n type isMutable done _ hk (.inr hc')),
      accept_one_then (by decide), if_pos hc', hb]
    refine (ih hbare (placeBefore_concat _ _ _) (by omega)).next ?_
    simp only [EStateM.pure_apply, List.append_assoc, List.cons_append, List.nil_append]

/-! ## Assignments -/

/-- A compound assignment is read. -/
theorem compoundValue_of_lookup {c : Bool} {x : String} {op : Arithmetic} {n : Nat}
    {done rest : List Token} {value : Node} {s : ParseState} :
    ∀ {ops : List (TokenKind × Arithmetic)}, (∀ entry ∈ ops, entry.1 ≠ .endOfFile) →
      ops.lookup t.kind = some op →
      Becomes c (expression n .disjunction (between (done ++ [t]) rest σ rs)) (.ok value s) →
      Becomes c (compoundValue n x ops (between done (t :: rest) σ rs))
        (.ok (some (.arithmetic op (.identifier x t.pos) value)) s)
  | [], _, hop, _ => nomatch hop
  | (kind, op') :: ops, hne, hop, hvalue => by
    rw [compoundValue, accept_one_then (hne _ List.mem_cons_self)]
    rw [List.lookup_cons] at hop
    by_cases hk : t.kind = kind
    · rw [if_pos hk, EStateM.bind_of_ok place_concat]
      simp only [hk, BEq.rfl, Option.some.injEq] at hop
      rw [← hop]
      exact hvalue.next rfl
    · rw [if_neg hk]
      have hk' : (t.kind == kind) = false := by simpa using hk
      rw [hk'] at hop
      exact compoundValue_of_lookup (fun entry hm => hne entry (List.mem_cons_of_mem _ hm)) hop
        hvalue

theorem assignment_plain {a : Token} {n : Nat} (done rest : List Token) (ha : a.kind = .assign)
    (value : Spans a.pos seg (.expression .disjunction e))
    (hu : ¬ u.kind.extendsLevel .disjunction) (hn : 12 * seg.length + 9 ≤ n) :
    Becomes (Node.assignment t.text e).exposesCall
      (assignment n (between (done ++ [t]) (a :: (seg ++ u :: rest)) σ rs))
      (.ok (.assignment t.text e) (between (done ++ t :: a :: seg) (u :: rest) σ rs)) := by
  have hassoc : done ++ t :: a :: seg = done ++ [t] ++ a :: seg := by simp
  rw [assignment, EStateM.bind_of_ok textAt_one_back, EStateM.bind_of_ok place_concat,
    accept_one_then (by decide), if_pos ha, Node.exposesCall, hassoc]
  exact value.value_becomes (.assignment t.text) hu hn

theorem assignment_update {a : Token} {op : Arithmetic} {n : Nat} (done rest : List Token)
    (ha : compoundAssignments.lookup a.kind = some op)
    (value : Spans a.pos seg (.expression .disjunction e))
    (hu : ¬ u.kind.extendsLevel .disjunction) (hn : 12 * seg.length + 9 ≤ n) :
    Becomes e.exposesCall
      (assignment n (between (done ++ [t]) (a :: (seg ++ u :: rest)) σ rs))
      (.ok (.assignment t.text (.arithmetic op (.identifier t.text a.pos) e))
        (between (done ++ t :: a :: seg) (u :: rest) σ rs)) := by
  have hne : a.kind ≠ .assign := by
    intro hk
    have hnone : compoundAssignments.lookup .assign = none := by decide
    rw [hk, hnone] at ha
    cases ha
  have hvalue : Becomes e.exposesCall
      (expression n .disjunction (between (done ++ [t] ++ [a]) (seg ++ u :: rest) σ rs)) _ :=
    value.expression_becomes hu (placeBefore_concat _ _ _) hn
  rw [assignment, EStateM.bind_of_ok textAt_one_back, EStateM.bind_of_ok place_concat,
    accept_one_then (by decide), if_neg hne]
  refine (compoundValue_of_lookup (by decide) ha hvalue).next ?_
  simp only [List.append_assoc, List.cons_append, List.nil_append]
  rfl

/-! ## What is read of each clause -/

/-- What is read of a segment that makes a clause. -/
def Clause.IsRead (scope : ScopeId) (σ : Scopes) (seg : List Token) (σ' : Scopes) : Clause → Prop
  | .statement isBare ns =>
    ∀ u : Token, u.kind.followsStatement = true → (isBare = true → u.kind = .semicolon) →
    ∀ (done rest : List Token) (rs : List Diagnostic) (n : Nat), 12 * seg.length + 15 ≤ n →
      Becomes (Node.exposesCallAny ns)
        (Parse.statement n scope (between done (seg ++ u :: rest) σ rs))
        (.ok ns (between (done ++ seg) (u :: rest) σ' rs))
  | .branches before bs =>
    ∀ u : Token, u.kind ≠ .elifWord →
    ∀ (done rest : List Token) (rs : List Diagnostic) (n : Nat),
      placeBefore done (seg ++ u :: rest) = before → 12 * seg.length + 16 ≤ n →
      Becomes (Node.exposesCallBranches bs)
        (Parse.branches n scope (between done (seg ++ u :: rest) σ rs))
        (.ok bs (between (done ++ seg) (u :: rest) σ' rs))
  | .block b =>
    ∀ (done rest : List Token) (rs : List Diagnostic) (n : Nat), 12 * seg.length ≤ n →
      Becomes b.exposesCall (Parse.block n scope (between done (seg ++ rest) σ rs))
        (.ok b (between (done ++ seg) rest σ' rs))
  | .body ss =>
    ∀ r : Token, r.kind = .rightBrace →
    ∀ (done rest : List Token) (rs : List Diagnostic) (n : Nat), 12 * seg.length + 16 ≤ n →
      Becomes (Node.exposesCallAny ss)
        (Parse.blockBody n scope (between done (seg ++ r :: rest) σ rs))
        (.ok (some ss) (between (done ++ seg ++ [r]) rest σ' rs))

namespace Clause
variable {scope : ScopeId} {σ₁ σ' : Scopes} {seg' : List Token} {b : Node}
  {bs : List (Node × Node)}

theorem isRead_declaration {k : Token} {isBare : Bool} {ds : List Node}
    (hk : k.kind = .varWord ∨ k.kind = .letWord)
    (ht : t.kind ∈ [TokenKind.intWord, .floatWord, .stringWord, .boolWord])
    (declared : Introduces t.text (decide (k.kind ≠ .letWord)) t.pos seg isBare ds) :
    Clause.IsRead scope σ (k :: t :: seg) σ (.statement isBare ds) := by
  intro u hu hbare done rest rs n hn
  obtain ⟨n, rfl⟩ := Nat.exists_eq_succ_of_ne_zero (show n ≠ 0 by omega)
  simp only [List.length_cons] at hn
  have hk' : k.kind ≠ .endOfFile ∧ k.kind ∈ [TokenKind.varWord, .letWord] := by
    rcases hk with hk | hk <;> rw [hk] <;> decide
  have ht' : t.kind ≠ .endOfFile := by
    intro he
    rw [he] at ht
    revert ht
    decide
  have hassoc : done ++ k :: t :: seg = done ++ [k] ++ [t] ++ seg := by simp
  rw [List.cons_append, List.cons_append, statement_between, if_pos hk', declaration, accept_then,
    if_pos ⟨ht', ht⟩, EStateM.bind_of_ok look_two_back, EStateM.bind_of_ok textAt_one_back, hassoc]
  exact declared.isRead hu hbare (placeBefore_concat _ _ _) (by omega)

/-- A statement of a single node. -/
theorem becomes_single {x : Parse Node} {s s' : ParseState}
    (h : Becomes e.exposesCall (x s) (.ok e s')) :
    Becomes (Node.exposesCallAny [e]) ((do return [← x] : Parse (List Node)) s) (.ok [e] s') := by
  simp only [Node.exposesCallAny, Bool.or_false]
  exact h.next rfl

/-- A statement that begins with a name and is not a call. -/
theorem statement_of_assignment {a : Token} {n : Nat} {done rest : List Token} {s : ParseState}
    (hk : t.kind = .identifier) (ha : a.kind ≠ .leftParen)
    (h : Becomes e.exposesCall (Parse.assignment n (between (done ++ [t]) (a :: rest) σ rs))
      (.ok e s)) :
    Becomes (Node.exposesCallAny [e])
      (Parse.statement (n + 1) scope (between done (t :: a :: rest) σ rs)) (.ok [e] s) := by
  rw [statement_between]
  simp only [hk, ne_eq, reduceCtorEq, not_false_eq_true, List.mem_cons, List.not_mem_nil, or_self,
    and_false, if_false, if_true]
  rw [accept_one_then (by decide), if_neg ha]
  exact becomes_single h

theorem isRead_assignment {a : Token} (hk : t.kind = .identifier) (ha : a.kind = .assign)
    (value : Spans a.pos seg (.expression .disjunction e)) :
    Clause.IsRead scope σ (t :: a :: seg) σ (.statement false [.assignment t.text e]) := by
  intro u hu _ done rest rs n hn
  obtain ⟨n, rfl⟩ := Nat.exists_eq_succ_of_ne_zero (show n ≠ 0 by omega)
  simp only [List.length_cons] at hn
  exact statement_of_assignment hk (by rw [ha]; decide)
    (assignment_plain done rest ha value (TokenKind.not_extendsLevel_of_follows _ hu) (by omega))

theorem isRead_update {a : Token} {op : Arithmetic} (hk : t.kind = .identifier)
    (ha : compoundAssignments.lookup a.kind = some op)
    (value : Spans a.pos seg (.expression .disjunction e)) :
    Clause.IsRead scope σ (t :: a :: seg) σ
      (.statement false [.assignment t.text (.arithmetic op (.identifier t.text a.pos) e)]) := by
  intro u hu _ done rest rs n hn
  obtain ⟨n, rfl⟩ := Nat.exists_eq_succ_of_ne_zero (show n ≠ 0 by omega)
  simp only [List.length_cons] at hn
  have ha' : a.kind ≠ .leftParen := by
    intro hp
    have hnone : compoundAssignments.lookup .leftParen = none := by decide
    rw [hp, hnone] at ha
    cases ha
  -- the left side of the operation is the variable itself
  have hexposed : e.exposesCall = (Node.assignment t.text
      (.arithmetic op (.identifier t.text a.pos) e)).exposesCall := by
    simp only [Node.exposesCall, Node.isCall, Bool.false_or]
  exact statement_of_assignment hk ha'
    ((assignment_update done rest ha value (TokenKind.not_extendsLevel_of_follows _ hu)
      (by omega)).cast hexposed)

theorem isRead_call {l r : Token} {es : List Node} (hk : t.kind = .identifier)
    (hl : l.kind = .leftParen) (hr : r.kind = .rightParen)
    (args : Spans l.pos seg (.arguments es)) :
    Clause.IsRead scope σ (t :: l :: (seg ++ [r])) σ (.statement false [.call t.text es]) := by
  intro u hu _ done rest rs n hn
  obtain ⟨n, rfl⟩ := Nat.exists_eq_succ_of_ne_zero (show n ≠ 0 by omega)
  simp only [List.length_cons, List.length_append, List.length_nil] at hn
  have hcall := call_of_completesArguments (t := t) (n := n) done (u :: rest) σ rs
    (args.isRead r hr) (by omega)
  have hassoc : t :: l :: (seg ++ [r]) ++ u :: rest = t :: l :: (seg ++ r :: u :: rest) := by simp
  rw [hassoc, statement_between]
  simp only [hk, ne_eq, reduceCtorEq, not_false_eq_true, List.mem_cons, List.not_mem_nil, or_self,
    and_false, if_false, if_true]
  rw [accept_one_then (by decide), if_pos hl]
  exact becomes_single (hcall.cast (by rw [Node.exposesCall]))

/-- A condition and the block behind it, with something that is made of the two. -/
theorem becomes_condition_block {α : Type} {before : Pos} {n : Nat} {done rest : List Token}
    {d : Bool} {f : Node → Node → Parse α} {q : EStateM.Result Fault ParseState α}
    (rs : List Diagnostic) (condition : Spans before seg (.expression .disjunction e))
    (hhead : ∃ l ls, seg' = l :: ls ∧ l.kind = .leftBrace)
    (block : Clause.IsRead scope σ seg' σ' (.block b))
    (hbefore : placeBefore done (seg ++ seg' ++ rest) = before)
    (hn : 12 * (seg ++ seg').length + 9 ≤ n)
    (hf : Becomes d (f e b (between (done ++ (seg ++ seg')) rest σ' rs)) q) :
    Becomes (e.exposesCall || b.exposesCall || d)
      ((expression n .disjunction >>= fun c => Parse.block n scope >>= fun b => f c b)
        (between done (seg ++ seg' ++ rest) σ rs)) q := by
  rw [List.length_append] at hn
  rw [Bool.or_assoc]
  have hblock := block (done ++ seg) rest rs n (by omega)
  rw [List.append_assoc] at hblock
  obtain ⟨l, ls, rfl, hl⟩ := hhead
  rw [List.append_assoc, List.cons_append] at hbefore ⊢
  refine (condition.expression_becomes (hl ▸ TokenKind.not_extendsLevel_leftBrace _) hbefore
    (by omega)).bind fun _ => ?_
  exact hblock.bind fun _ => hf

theorem isRead_branch {before : Pos} (condition : Spans before seg (.expression .disjunction e))
    (hhead : ∃ l ls, seg' = l :: ls ∧ l.kind = .leftBrace)
    (block : Clause.IsRead scope σ seg' σ' (.block b)) :
    Clause.IsRead scope σ (seg ++ seg') σ' (.branches before [(e, b)]) := by
  intro u hu done rest rs n hbefore hn
  obtain ⟨n, rfl⟩ := Nat.exists_eq_succ_of_ne_zero (show n ≠ 0 by omega)
  rw [Parse.branches, Node.exposesCallBranches, Node.exposesCallBranches]
  refine becomes_condition_block rs condition hhead block hbefore (by omega) ?_
  rw [accept_one_then (by decide), if_neg hu]
  exact Becomes.refl _

theorem isRead_branchMore {before : Pos} {o : Token} {seg'' : List Token}
    (condition : Spans before seg (.expression .disjunction e))
    (hhead : ∃ l ls, seg' = l :: ls ∧ l.kind = .leftBrace)
    (block : Clause.IsRead scope σ seg' σ₁ (.block b)) (ho : o.kind = .elifWord)
    (more : Clause.IsRead scope σ₁ seg'' σ' (.branches o.pos bs)) :
    Clause.IsRead scope σ (seg ++ (seg' ++ o :: seg'')) σ' (.branches before ((e, b) :: bs)) := by
  intro u hu done rest rs n hbefore hn
  obtain ⟨n, rfl⟩ := Nat.exists_eq_succ_of_ne_zero (show n ≠ 0 by omega)
  have hassoc : seg ++ (seg' ++ o :: seg'') ++ u :: rest =
      seg ++ seg' ++ o :: (seg'' ++ u :: rest) := by simp
  simp only [List.length_append, List.length_cons] at hn
  rw [hassoc] at hbefore ⊢
  rw [Parse.branches, Node.exposesCallBranches]
  refine becomes_condition_block rs condition hhead block hbefore
    (by rw [List.length_append]; omega) ?_
  rw [accept_one_then (by decide), if_pos ho]
  refine (more u hu _ _ _ _ (placeBefore_concat _ _ _) (by omega)).next ?_
  simp only [EStateM.pure_apply, List.append_assoc, List.cons_append, List.nil_append]

/-- A statement that begins with `if`. -/
theorem statement_of_conditional {n : Nat} {done rest : List Token} {s : ParseState}
    (hk : t.kind = .ifWord)
    (h : Becomes e.exposesCall (Parse.conditional n scope (between (done ++ [t]) rest σ rs))
      (.ok e s)) :
    Becomes (Node.exposesCallAny [e])
      (Parse.statement (n + 1) scope (between done (t :: rest) σ rs)) (.ok [e] s) := by
  rw [statement_between]
  simp only [hk, ne_eq, reduceCtorEq, not_false_eq_true, List.mem_cons, List.not_mem_nil, or_self,
    and_false, if_false, if_true]
  exact becomes_single h

theorem isRead_conditional {r : Token} (hk : t.kind = .ifWord)
    (branches : Clause.IsRead scope σ (seg ++ [r]) σ' (.branches t.pos bs)) :
    Clause.IsRead scope σ (t :: (seg ++ [r])) σ'
      (.statement false [.conditional bs (.empty r.pos)]) := by
  intro u hu _ done rest rs n hn
  obtain ⟨n, rfl⟩ : ∃ k, n = k + 2 := ⟨n - 2, by omega⟩
  simp only [List.length_cons] at hn
  have hne : u.kind ≠ .elifWord ∧ u.kind ≠ .elseWord := by
    constructor <;> intro hk <;> rw [hk] at hu <;> cases hu
  have hbranches := branches u hne.1 (done ++ [t]) rest rs n (placeBefore_concat _ _ _) (by omega)
  have hassoc : done ++ [t] ++ (seg ++ [r]) = done ++ t :: seg ++ [r] := by simp
  rw [List.cons_append]
  refine statement_of_conditional hk ?_
  simp only [Node.exposesCall, Bool.or_false]
  rw [Parse.conditional]
  refine hbranches.next ?_
  rw [accept_one_then (by decide), if_neg hne.2, hassoc, EStateM.bind_of_ok place_concat]
  simp only [EStateM.pure_apply, List.append_assoc, List.cons_append]

theorem isRead_conditionalElse {o : Token} (hk : t.kind = .ifWord)
    (branches : Clause.IsRead scope σ seg σ₁ (.branches t.pos bs)) (ho : o.kind = .elseWord)
    (otherwise : Clause.IsRead scope σ₁ seg' σ' (.block b)) :
    Clause.IsRead scope σ (t :: (seg ++ o :: seg')) σ'
      (.statement false [.conditional bs (.otherwise b)]) := by
  intro u hu _ done rest rs n hn
  obtain ⟨n, rfl⟩ : ∃ k, n = k + 2 := ⟨n - 2, by omega⟩
  simp only [List.length_cons, List.length_append] at hn
  have hassoc : t :: (seg ++ o :: seg') ++ u :: rest = t :: (seg ++ o :: (seg' ++ u :: rest)) := by
    simp
  have hbranches := branches o (by rw [ho]; decide) (done ++ [t]) (seg' ++ u :: rest) rs n
    (placeBefore_concat _ _ _) (by omega)
  rw [hassoc]
  refine statement_of_conditional hk ?_
  simp only [Node.exposesCall]
  rw [Parse.conditional]
  refine hbranches.bind fun _ => ?_
  rw [accept_one_then (by decide), if_pos ho]
  refine (otherwise _ _ _ _ (by omega)).next ?_
  simp only [EStateM.pure_apply, List.append_assoc, List.cons_append, List.nil_append]

theorem isRead_loop (hk : t.kind = .whileWord)
    (condition : Spans t.pos seg (.expression .disjunction e))
    (hhead : ∃ l ls, seg' = l :: ls ∧ l.kind = .leftBrace)
    (block : Clause.IsRead scope σ seg' σ' (.block b)) :
    Clause.IsRead scope σ (t :: (seg ++ seg')) σ' (.statement false [.loop e b]) := by
  intro u hu _ done rest rs n hn
  obtain ⟨n, rfl⟩ := Nat.exists_eq_succ_of_ne_zero (show n ≠ 0 by omega)
  simp only [List.length_cons] at hn
  rw [List.cons_append, statement_between]
  simp only [hk, ne_eq, reduceCtorEq, not_false_eq_true, List.mem_cons, List.not_mem_nil, or_self,
    and_false, if_false, if_true, Node.exposesCallAny, Node.exposesCall]
  refine becomes_condition_block rs condition hhead block
    (placeBefore_concat done t (seg ++ seg' ++ u :: rest)) (by omega) ?_
  simp only [EStateM.pure_apply, List.append_assoc, List.cons_append, List.nil_append]
  exact Becomes.refl _

theorem isRead_endless (hk : t.kind = .loopWord)
    (block : Clause.IsRead scope σ seg σ' (.block b)) :
    Clause.IsRead scope σ (t :: seg) σ'
      (.statement false [.loop (.literal .bool (.bool true) t.pos) b]) := by
  intro u hu _ done rest rs n hn
  obtain ⟨n, rfl⟩ := Nat.exists_eq_succ_of_ne_zero (show n ≠ 0 by omega)
  simp only [List.length_cons] at hn
  rw [List.cons_append, statement_between]
  simp only [hk, ne_eq, reduceCtorEq, not_false_eq_true, List.mem_cons, List.not_mem_nil, or_self,
    and_false, if_false, if_true, Node.exposesCallAny, Node.exposesCall, Bool.or_false, Bool.false_or]
  refine (block _ _ _ _ (by omega)).next ?_
  simp only [EStateM.pure_apply, List.append_assoc, List.cons_append, List.nil_append]

theorem isRead_block {l r : Token} {ss : List Node} (hl : l.kind = .leftBrace)
    (hr : r.kind = .rightBrace)
    (body : Clause.IsRead (σ.openIn scope).2 (σ.openIn scope).1 seg σ' (.body ss)) :
    Clause.IsRead scope σ (l :: (seg ++ [r])) σ' (.block (.block ss (σ.openIn scope).2)) := by
  intro done rest rs n hn
  simp only [List.length_cons, List.length_append, List.length_nil] at hn
  obtain ⟨n, rfl⟩ := Nat.exists_eq_succ_of_ne_zero (show n ≠ 0 by omega)
  have hassoc : l :: (seg ++ [r]) ++ rest = l :: (seg ++ r :: rest) := by simp
  rw [hassoc, block_between, if_pos hl, Node.exposesCall]
  refine (body r hr _ _ _ _ (by omega)).next ?_
  simp only [EStateM.pure_apply, List.append_assoc, List.cons_append, List.nil_append]

theorem exposesCallAny_append (ns ss : List Node) :
    Node.exposesCallAny (ns ++ ss) = (Node.exposesCallAny ns || Node.exposesCallAny ss) := by
  induction ns with
  | nil => rfl
  | cons n ns ih => simp only [List.cons_append, Node.exposesCallAny, ih, Bool.or_assoc]

/-- What follows a statement, before the token behind the list of statements. -/
theorem exists_follower {isBare : Bool} {ss : List Node}
    (rest : Composes scope σ seg σ' (.body ss))
    (hbare : isBare = true → ∃ t ts, seg = t :: ts ∧ t.kind = .semicolon)
    (hu : seg = [] → u.kind.followsStatement = true) (more : List Token) :
    ∃ v vs, seg ++ u :: more = v :: vs ∧ v.kind.followsStatement = true ∧
      (isBare = true → v.kind = .semicolon) := by
  cases seg with
  | nil =>
    refine ⟨u, more, rfl, hu rfl, ?_⟩
    intro hb
    obtain ⟨t, ts, hnil, -⟩ := hbare hb
    cases hnil
  | cons v vs =>
    refine ⟨v, _, rfl, rest.followsStatement_head v rfl, ?_⟩
    intro hb
    obtain ⟨t, ts, hcons, hk⟩ := hbare hb
    cases hcons
    exact hk

/-- The first of several statements is read, and its first token tells it from a terminator and
from the end of the statements. -/
theorem exists_first {isBare : Bool} {ns ss : List Node}
    (hfirst : Composes scope σ seg σ₁ (.statement isBare ns))
    (hrest : Composes scope σ₁ seg' σ' (.body ss))
    (hbare : isBare = true → ∃ t ts, seg' = t :: ts ∧ t.kind = .semicolon)
    (first : Clause.IsRead scope σ seg σ₁ (.statement isBare ns))
    (hu : seg' = [] → u.kind.followsStatement = true)
    (done more : List Token) (rs : List Diagnostic) {n : Nat} (hn : 12 * seg.length + 15 ≤ n) :
    ∃ t ts, seg = t :: ts ∧ t.kind ∉ [TokenKind.semicolon, .endOfFile, .rightBrace] ∧
      Becomes (Node.exposesCallAny ns)
        (Parse.statement n scope (between done (t :: (ts ++ (seg' ++ u :: more))) σ rs))
        (.ok ns (between (done ++ t :: ts) (seg' ++ u :: more) σ₁ rs)) := by
  obtain ⟨v, vs, hv, hfollows, hsemi⟩ := exists_follower hrest hbare hu more
  obtain ⟨t, ts, rfl, hbegins⟩ := hfirst.exists_head
  refine ⟨t, ts, rfl, ?_, ?_⟩
  · intro hk
    simp only [List.mem_cons, List.not_mem_nil, or_false] at hk
    rcases hk with hk | hk | hk <;> rw [hk] at hbegins <;> cases hbegins
  · have hstatement := first v hfollows hsemi done vs rs n hn
    rw [← hv, List.cons_append] at hstatement
    exact hstatement

theorem isRead_cons {isBare : Bool} {ns ss : List Node}
    (hfirst : Composes scope σ seg σ₁ (.statement isBare ns))
    (hrest : Composes scope σ₁ seg' σ' (.body ss))
    (hbare : isBare = true → ∃ t ts, seg' = t :: ts ∧ t.kind = .semicolon)
    (first : Clause.IsRead scope σ seg σ₁ (.statement isBare ns))
    (rest : Clause.IsRead scope σ₁ seg' σ' (.body ss)) :
    Clause.IsRead scope σ (seg ++ seg') σ' (.body (ns ++ ss)) := by
  intro r hr done more rs n hn
  obtain ⟨n, rfl⟩ := Nat.exists_eq_succ_of_ne_zero (show n ≠ 0 by omega)
  obtain ⟨t, ts, rfl, ht, hstatement⟩ := exists_first hfirst hrest hbare first
    (fun _ => show r.kind.followsStatement = true by rw [hr]; rfl) done more rs
    (show _ ≤ n by rw [List.length_append] at hn; omega)
  simp only [List.length_append, List.length_cons] at hn
  simp only [List.mem_cons, List.not_mem_nil, or_false, not_or] at ht
  rw [List.append_assoc, List.cons_append, blockBody_between, if_neg ht.1, if_neg ht.2.1,
    if_neg ht.2.2, exposesCallAny_append]
  refine hstatement.bind fun _ => (rest r hr _ _ _ _ (by omega)).next ?_
  simp only [EStateM.pure_apply, Option.map_some, List.append_assoc, List.cons_append]

end Clause

/-! ## All statements -/

/-- **Whatever makes a clause is read**, by induction on the derivation. -/
theorem Composes.isRead {scope : ScopeId} {σ' : Scopes} {c : Clause}
    (h : Composes scope σ seg σ' c) : c.IsRead scope σ seg σ' := by
  induction h with
  | declaration hk ht declared => exact Clause.isRead_declaration hk ht declared
  | call hk hl hr args => exact Clause.isRead_call hk hl hr args
  | assignment hk ha value => exact Clause.isRead_assignment hk ha value
  | update hk ha value => exact Clause.isRead_update hk ha value
  | conditional hk branches ih => exact Clause.isRead_conditional hk ih
  | conditionalElse hk branches ho otherwise ihb iho =>
    exact Clause.isRead_conditionalElse hk ihb ho iho
  | loop hk condition block ih => exact Clause.isRead_loop hk condition block.exists_leftBrace ih
  | endless hk block ih => exact Clause.isRead_endless hk ih
  | breakLoop hk | continueLoop hk =>
    intro u hu _ done rest rs n hn
    obtain ⟨n, rfl⟩ := Nat.exists_eq_succ_of_ne_zero (show n ≠ 0 by omega)
    simp only [Node.exposesCallAny, Node.exposesCall, Bool.or_false]
    refine Becomes.of_eq ?_
    rw [List.singleton_append, statement_between]
    simp [hk]
  | branch condition block ih => exact Clause.isRead_branch condition block.exists_leftBrace ih
  | branchMore condition block ho more ihb ihm =>
    exact Clause.isRead_branchMore condition block.exists_leftBrace ihb ho ihm
  | block hl hr body ih => exact Clause.isRead_block hl hr ih
  | nil =>
    intro r hr done rest rs n hn
    obtain ⟨n, rfl⟩ := Nat.exists_eq_succ_of_ne_zero (show n ≠ 0 by omega)
    refine Becomes.of_eq ?_
    rw [List.nil_append, blockBody_between]
    simp [hr]
  | @semicolon scope σ σ' t seg ss hk body ih =>
    intro r hr done rest rs n hn
    obtain ⟨n, rfl⟩ := Nat.exists_eq_succ_of_ne_zero (show n ≠ 0 by omega)
    simp only [List.length_cons] at hn
    have hassoc : done ++ t :: seg = done ++ [t] ++ seg := by simp
    rw [List.cons_append, blockBody_between, if_pos hk, hassoc]
    exact ih r hr _ _ _ _ (by omega)
  | cons first rest hbare ihf ihr => exact Clause.isRead_cons first rest hbare ihf ihr

/-! ## Programs -/

/-- **The statements of a segment are read, and reading goes on behind it**, if what comes next can
stand behind a statement, or if the segment has an end of its own: it is empty, or its last token is a
semicolon. -/
theorem Composes.programBody_goesOn {scope : ScopeId} {σ' : Scopes} {c : Clause}
    (h : Composes scope σ seg σ' c) (hroot : scope = Scopes.root) :
    ∀ {ss : List Node}, c = .body ss →
      (u.kind.followsStatement = true ∨ ∀ t ∈ seg.getLast?, t.kind = .semicolon) →
      ∀ (done more : List Token) (rs : List Diagnostic) {n : Nat}, 12 * seg.length + 16 ≤ n →
        ∃ m, n ≤ m + seg.length ∧ Becomes (Node.exposesCallAny ss)
          (programBody n (between done (seg ++ u :: more) σ rs))
          ((do return ss ++ (← programBody m)) (between (done ++ seg) (u :: more) σ' rs)) := by
  induction h with
  | declaration | call | assignment | update | conditional | conditionalElse | loop | endless
    | breakLoop | continueLoop | branch | branchMore | block =>
    rintro ss ⟨⟩
  | @nil scope σ =>
    rintro ss ⟨⟩ - done more rs n hn
    refine ⟨n, Nat.le_add_right _ _, Becomes.of_eq ?_⟩
    rw [List.append_nil, List.nil_append]
    simp only [List.nil_append, bind_pure]
  | @semicolon scope σ σ' t seg ss hk rest ih =>
    rintro ss ⟨⟩ hu done more rs n hn
    obtain ⟨n, rfl⟩ := Nat.exists_eq_succ_of_ne_zero (show n ≠ 0 by omega)
    simp only [List.length_cons] at hn
    have hu' : u.kind.followsStatement = true ∨ ∀ t ∈ seg.getLast?, t.kind = .semicolon := by
      refine hu.imp_right fun hlast v hv => hlast v ?_
      rw [List.getLast?_cons, hv]
      rfl
    obtain ⟨m, hm, hread⟩ := ih hroot rfl hu' (done ++ [t]) more rs
      (show 12 * seg.length + 16 ≤ n by omega)
    refine ⟨m, by simp only [List.length_cons]; omega, ?_⟩
    rw [List.cons_append, programBody_between, if_pos hk]
    rwa [List.append_assoc, List.singleton_append] at hread
  | @cons scope σ σ₁ σ' seg seg' isBare ns ss first rest hbare _ ih =>
    rintro ss ⟨⟩ hu done more rs n hn
    subst hroot
    obtain ⟨n, rfl⟩ := Nat.exists_eq_succ_of_ne_zero (show n ≠ 0 by omega)
    simp only [List.length_append] at hn
    -- a statement does not end with a semicolon, so one that is the last is not the end of its own
    have hfollows : seg' = [] → u.kind.followsStatement = true := by
      rintro rfl
      refine hu.resolve_right fun hlast => ?_
      obtain ⟨init, r, rfl, hr⟩ := first.exists_last rfl
      exact hr (hlast r (by simp))
    have hu' : u.kind.followsStatement = true ∨ ∀ t ∈ seg'.getLast?, t.kind = .semicolon := by
      refine hu.imp_right fun hlast v hv => hlast v ?_
      rw [List.getLast?_append, hv]
      rfl
    obtain ⟨t, ts, rfl, ht, hstatement⟩ := Clause.exists_first first rest hbare first.isRead
      hfollows done more rs (show _ ≤ n by omega)
    obtain ⟨m, hm, hread⟩ := ih rfl rfl hu' (done ++ t :: ts) more rs
      (show 12 * seg'.length + 16 ≤ n by rw [List.length_cons] at hn; omega)
    refine ⟨m, by simp only [List.length_append, List.length_cons]; omega, ?_⟩
    simp only [List.mem_cons, List.not_mem_nil, or_false, not_or] at ht
    rw [List.append_assoc, List.cons_append, programBody_between, if_neg ht.1, if_neg ht.2.1,
      Clause.exposesCallAny_append]
    refine hstatement.bind fun _ => ?_
    have hmore := hread.before fun more => pure (ns ++ more)
    simp only [bind_assoc, pure_bind, ← List.append_assoc] at hmore ⊢
    exact hmore

/-- The statements of a program are read up to the end. -/
theorem Composes.programBody_becomes {σ' : Scopes} {ss : List Node}
    (h : Composes Scopes.root σ seg σ' (.body ss)) (hu : u.kind = .endOfFile)
    {done more : List Token} {n : Nat} (hn : 12 * seg.length + 16 ≤ n) :
    Becomes (Node.exposesCallAny ss) (programBody n (between done (seg ++ u :: more) σ rs))
      (.ok ss (between (done ++ seg) (u :: more) σ' rs)) := by
  obtain ⟨m, hm, hread⟩ := h.programBody_goesOn rfl rfl (.inl (by rw [hu]; rfl)) done more rs hn
  obtain ⟨m, rfl⟩ := Nat.exists_eq_succ_of_ne_zero (show m ≠ 0 by omega)
  have hend : programBody (m + 1) (between (done ++ seg) (u :: more) σ' rs) =
      .ok [] (between (done ++ seg) (u :: more) σ' rs) := by
    rw [programBody_between]
    simp [hu]
  rwa [EStateM.bind_of_ok hend, List.append_nil] at hread

/-- **A program that the grammar composes is read**, whatever stands behind its end, and nothing is
reported, or a call is exposed. -/
theorem parseProgram_becomes_of_append {σ' : Scopes} {ss : List Node} (more : List Token)
    (h : Composes Scopes.root {} seg σ' (.body ss)) (hu : u.kind = .endOfFile) :
    Becomes (Node.exposesCallAny ss) (parseProgram (seg ++ u :: more))
      (.ok (.program ss Scopes.root) (between seg (u :: more) σ' [])) := by
  have hbody : Becomes (Node.exposesCallAny ss)
      (programBody (programBudget (seg ++ u :: more).length) (between [] (seg ++ u :: more) {} []))
      (.ok ss (between seg (u :: more) σ' [])) := by
    refine h.programBody_becomes hu ?_
    simp only [programBudget, List.length_append]
    omega
  rw [Parse.parseProgram_eq]
  exact hbody.next rfl

theorem parseProgram_becomes {σ' : Scopes} {ss : List Node}
    (h : Composes Scopes.root {} seg σ' (.body ss)) (hu : u.kind = .endOfFile) :
    Becomes (Node.exposesCallAny ss) (parseProgram (seg ++ [u]))
      (.ok (.program ss Scopes.root) (between seg [u] σ' [])) :=
  parseProgram_becomes_of_append [] h hu

end Scriptlet
