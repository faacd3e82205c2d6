import Scriptlet.Proofs.TokenGrammar

/-! # What is read follows the grammar

Whatever tokens come, a reader of expressions that returns a node without a report has read a
segment that the grammar spans that node from. A mistake is passed over with a report, and an
empty node then stands for what was not understood, which looks like the literal `none`; so the
statements say what the readers report, and promise a derivation only if that is nothing.

Nothing is asked of the tokens, not even that one of them marks the end: a reader that leaves the list
does not return. The readers call each other with a smaller budget, and the proof is by induction on
the budget, for all of them at once.
-/
namespace Scriptlet

open ParseState

/-! ## The way from one state to another -/

/-- Reading went on from behind `done` and before `rest` over the segment `seg`, with the reports
`new` and the scopes `σ`, and reached the state `s` before `rest'`. -/
structure Reached (done rest : List Token) (rs : List Diagnostic) (seg rest' : List Token)
    (new : List Diagnostic) (σ : Scopes) (s : ParseState) : Prop where
  split : rest = seg ++ rest'
  state : s = between (done ++ seg) rest' σ (rs ++ new)

namespace Reached
variable {done rest rest' rest'' seg seg' : List Token} {rs new new' : List Diagnostic}
  {σ σ' : Scopes} {s s' : ParseState} {t : Token}

theorem refl : Reached done rest rs [] rest [] σ (between done rest σ rs) := by
  refine ⟨rfl, ?_⟩
  rw [List.append_nil, List.append_nil]

/-- Two ways, one behind the other. -/
theorem trans (h : Reached done rest rs seg rest' new σ s)
    (h' : Reached (done ++ seg) rest' (rs ++ new) seg' rest'' new' σ' s') :
    Reached done rest rs (seg ++ seg') rest'' (new ++ new') σ' s' := by
  refine ⟨?_, ?_⟩
  · rw [h.split, h'.split, List.append_assoc]
  · rw [h'.state, List.append_assoc, List.append_assoc]

/-- One token, and a way behind it. -/
theorem cons (h : Reached (done ++ [t]) rest rs seg rest' new σ s) :
    Reached done (t :: rest) rs (t :: seg) rest' new σ s := by
  refine ⟨?_, ?_⟩
  · rw [h.split, List.cons_append]
  · rw [h.state, List.append_assoc]
    rfl

/-- A way, and one token behind it. -/
theorem concat (h : Reached done rest rs seg (t :: rest') new σ s) :
    Reached done rest rs (seg ++ [t]) rest' new σ (between (done ++ seg ++ [t]) rest' σ (rs ++ new))
    where
  split := by rw [h.split, List.append_assoc]; rfl
  state := by rw [List.append_assoc]

/-- One token. -/
theorem single : Reached done (t :: rest) rs [t] rest [] σ (between (done ++ [t]) rest σ rs) :=
  Reached.refl.cons

end Reached

/-- A mistake leads on to a later token, and leaves a report. -/
theorem Parse.exists_reached_of_declareError {problem : GrammarProblem} {done rest : List Token}
    {σ : Scopes} {rs : List Diagnostic} {u : Unit} {s : ParseState}
    (h : declareError problem (between done rest σ rs) = .ok u s) :
    ∃ seg rest' new, Reached done rest rs seg rest' new σ s ∧ new ≠ [] := by
  obtain ⟨p, s₁, hp, h⟩ := EStateM.bind_eq_ok.mp h
  obtain ⟨_, s₂, hm, h⟩ := EStateM.bind_eq_ok.mp h
  obtain ⟨_, s₃, hget, h⟩ := EStateM.bind_eq_ok.mp h
  obtain rfl := state_of_place hp
  cases hm
  cases hget
  cases hfind : rest.findIdx? (fun t => t.kind = .endOfFile || resumesAt t.kind) with
  | none =>
    simp only [between, List.drop_left, hfind] at h
    cases h
  | some i =>
    simp only [between, List.drop_left, hfind, EStateM.modify_apply] at h
    cases h
    obtain ⟨hlt, -⟩ := List.findIdx?_eq_some_iff_getElem.mp hfind
    refine ⟨rest.take i, rest.drop i, [.grammar problem p], ⟨?_, ?_⟩, List.cons_ne_nil _ _⟩
    · exact (List.take_append_drop i rest).symm
    · simp only [between, List.append_assoc, List.take_append_drop, List.length_append,
        List.length_take, Nat.min_eq_left (Nat.le_of_lt hlt)]

/-! ## What each reader promises -/

/-- What a reader that returns `a` has read: a segment that `P` accepts, unless it reported
something. `P` is told the place before the segment, the segment and the tokens behind it. -/
def Follows {α : Type} (p : Parse α) (P : Pos → List Token → List Token → α → Prop) : Prop :=
  ∀ {done rest : List Token} {σ : Scopes} {rs : List Diagnostic} {a : α} {s : ParseState},
    p (between done rest σ rs) = .ok a s →
    ∃ seg rest' new, Reached done rest rs seg rest' new σ s ∧
      (new = [] → P (placeBefore done rest) seg rest' a)

/-- No operator of the level comes next. -/
def NoOperator (l : Level) (rest : List Token) : Prop :=
  ∀ t ∈ rest.head?, t.kind ∉ l.operators

/-- An expression of the level has been read, and all operators that go on with it. -/
def ReadsExpression (l : Level) (before : Pos) (seg rest : List Token) (e : Node) : Prop :=
  Spans before seg (.expression l e) ∧ NoOperator l rest

/-- All operators of the level that follow `left` have been read. -/
def ReadsChain (l : Level) (left : Node) (_ : Pos) (seg rest : List Token) (e : Node) : Prop :=
  NoOperator l rest ∧ ((seg = [] ∧ e = left) ∨ ∀ before seg₀,
    Spans before seg₀ (.expression l.leftSide left) →
      Spans before (seg₀ ++ seg) (.expression l e))

/-- The arguments of a call and the closing parenthesis have been read. -/
def ReadsArguments (before : Pos) (seg _ : List Token) (es : Option (List Node)) : Prop :=
  ∃ args seg' r, es = some args ∧ seg = seg' ++ [r] ∧ r.kind = .rightParen ∧
    Spans before seg' (.arguments args)

/-- What is read behind a name and an opening parenthesis is the call of that name. -/
def FollowsCall (n : Nat) : Prop :=
  ∀ {done rest : List Token} {t l : Token} {σ : Scopes} {rs : List Diagnostic} {e : Node}
    {s : ParseState}, Parse.call n (between (done ++ [t] ++ [l]) rest σ rs) = .ok e s →
    ∃ seg rest' new, Reached (done ++ [t] ++ [l]) rest rs seg rest' new σ s ∧
      (new = [] → ∃ args seg' r, e = .call t.text args ∧ seg = seg' ++ [r] ∧
        r.kind = .rightParen ∧ Spans l.pos seg' (.arguments args))

/-- The statement of soundness for a budget, for all readers of expressions. -/
structure SoundWithin (n : Nat) : Prop where
  expression : ∀ l, Follows (Parse.expression n l) (ReadsExpression l)
  chain : ∀ l left, Follows (Parse.chain n l left) (ReadsChain l left)
  primitive : Follows (Parse.primitive n) (ReadsExpression .primitive)
  call : FollowsCall n
  arguments : Follows (Parse.arguments n) ReadsArguments

namespace SoundWithin

open Parse

variable {n : Nat}

/-! ## Chains of operators -/

theorem pos_eq_ok_of_map {a : Node} {f : Pos → Node} {r : Node} (h : a.pos.map f = .ok r) :
    ∃ p, a.pos = .ok p ∧ f p = r := by
  cases hp : a.pos with
  | ok p =>
    rw [hp] at h
    cases h
    exact ⟨p, rfl, rfl⟩
  | error fault =>
    rw [hp] at h
    cases h

/-- Where no operator of the level comes, a chain is read no further. -/
theorem chain_stays {l : Level} {left e : Node} {done rest : List Token} {σ : Scopes}
    {rs : List Diagnostic} {s : ParseState} (hno : NoOperator l rest)
    (h : Parse.chain n l left (between done rest σ rs) = .ok e s) :
    e = left ∧ s = between done rest σ rs := by
  cases n with
  | zero => cases h
  | succ n =>
    rw [Parse.chain] at h
    cases rest with
    | nil =>
      -- without operators no token is looked at
      cases hops : l.operators with
      | nil =>
        rw [hops] at h
        cases h
        exact ⟨rfl, rfl⟩
      | cons k ks =>
        rw [hops, (needsToken_accept k ks).bind] at h
        cases h
    | cons t ts =>
      have hn : ¬ (t.kind ≠ .endOfFile ∧ t.kind ∈ l.operators) := fun hk => hno t rfl hk.2
      rw [accept_then, if_neg hn] at h
      obtain ⟨rfl, rfl⟩ := EStateM.pure_eq_ok.mp h
      exact ⟨rfl, rfl⟩

/-- A chain that has nothing to read. -/
theorem follows_stay {l : Level} {left e : Node} {done rest : List Token} {σ : Scopes}
    {rs : List Diagnostic} {s : ParseState} (hno : NoOperator l rest)
    (h : Parse.chain n l left (between done rest σ rs) = .ok e s) :
    ∃ seg rest' new, Reached done rest rs seg rest' new σ s ∧
      (new = [] → ReadsChain l left (placeBefore done rest) seg rest' e) := by
  obtain ⟨rfl, rfl⟩ := chain_stays hno h
  exact ⟨[], rest, [], Reached.refl, fun _ => ⟨hno, .inl ⟨rfl, rfl⟩⟩⟩

/-- One more operator of the level, or none. -/
theorem chain_succ (ih : SoundWithin n) (l : Level) (left : Node) :
    Follows (Parse.chain (n + 1) l left) (ReadsChain l left) := by
  intro done rest σ rs e s h
  by_cases hno : NoOperator l rest
  · exact follows_stay hno h
  obtain ⟨t, ts, rfl⟩ : ∃ t ts, rest = t :: ts := by
    refine List.exists_cons_of_ne_nil fun hnil => hno ?_
    rw [hnil]
    exact fun _ hu => nomatch hu
  have hmem : t.kind ∈ l.operators := by
    refine Decidable.byContradiction fun hn => hno fun u hu => ?_
    cases hu
    exact hn
  obtain ⟨op, rfl, hop⟩ := Operator.exists_of_mem_operators hmem
  have hend : t.kind ≠ .endOfFile := hop ▸ op.kind_ne_endOfFile
  rw [Parse.chain, accept_then, if_pos ⟨hend, hmem⟩, EStateM.bind_of_ok textAt_one_back] at h
  obtain ⟨right, s₁, hright, h⟩ := EStateM.bind_eq_ok.mp h
  obtain ⟨node, s₂, hj, h⟩ := EStateM.bind_eq_ok.mp h
  obtain ⟨hnode, rfl⟩ := ofExcept_eq_ok hj
  obtain ⟨seg, rest', new, hreach, hd⟩ := ih.expression op.level.rightSide hright
  rw [Level.join_eq] at hnode
  obtain ⟨p, -, rfl⟩ := pos_eq_ok_of_map hnode
  rw [hreach.state] at h
  obtain ⟨seg', rest'', new', hreach', hd'⟩ := ih.chain op.level _ h
  refine ⟨t :: (seg ++ seg'), rest'', new ++ new', (hreach.trans hreach').cons, ?_⟩
  intro hnew
  obtain ⟨rfl, rfl⟩ := List.append_eq_nil_iff.mp hnew
  obtain ⟨hspans, hno'⟩ := hd rfl
  rw [placeBefore_concat] at hspans
  obtain ⟨hno'', hchain⟩ := hd' rfl
  have hjoin : ∀ before seg₀, Spans before seg₀ (.expression op.level.leftSide left) →
      Spans before (seg₀ ++ t :: seg) (.expression op.level (op.level.joined t.text left right)) :=
    fun before seg₀ hleft => .join op hleft hop.symm hspans
  -- what has been read so far is the left side of what the chain goes on with
  refine ⟨hno'', .inr ?_⟩
  intro before seg₀ hleft
  rcases hchain with ⟨rfl, rfl⟩ | hchain
  · rw [List.append_nil]
    exact hjoin before seg₀ hleft
  · by_cases hp : op.level = .power
    · -- a power on the right has read all operators of its level, so the chain ends here
      have hstay : NoOperator op.level rest' := by
        rw [hp] at hno' ⊢
        exact hno'
      obtain ⟨rfl, hstate⟩ := chain_stays hstay h
      have hnil : seg' = [] := by
        rw [hreach'.state] at hstate
        have hlen := congrArg (fun s => s.cursor.index) hstate
        simp only [between, List.length_append] at hlen
        exact List.eq_nil_of_length_eq_zero (by omega)
      rw [hnil, List.append_nil]
      exact hjoin before seg₀ hleft
    · have hside : op.level.leftSide = op.level := by
        cases op with
        | pow => exact absurd rfl hp
        | _ => rfl
      have := hchain before (seg₀ ++ t :: seg) (by rw [hside]; exact hjoin before seg₀ hleft)
      rwa [List.append_assoc, List.cons_append] at this

/-! ## Levels -/

theorem expression_of_operators {l : Level} (h : l.operators ≠ []) :
    Parse.expression (n + 1) l = (do
      let left ← Parse.expression n l.next
      Parse.chain n l left) := by
  cases l with
  | negation | sign | primitive => exact absurd rfl h
  | _ => rfl

/-- A level with operators: a part of the next level, and a chain. -/
theorem expression_chained (ih : SoundWithin n) {l : Level} (hl : l.operators ≠ []) :
    Follows (Parse.expression (n + 1) l) (ReadsExpression l) := by
  intro done rest σ rs e s h
  rw [expression_of_operators hl] at h
  obtain ⟨left, s₁, hleft, h⟩ := EStateM.bind_eq_ok.mp h
  obtain ⟨seg, rest', new, hreach, hd⟩ := ih.expression l.next hleft
  rw [hreach.state] at h
  obtain ⟨seg', rest'', new', hreach', hd'⟩ := ih.chain l left h
  refine ⟨seg ++ seg', rest'', new ++ new', hreach.trans hreach', ?_⟩
  intro hnew
  obtain ⟨rfl, rfl⟩ := List.append_eq_nil_iff.mp hnew
  obtain ⟨hspans, -⟩ := hd rfl
  obtain ⟨hno, hchain⟩ := hd' rfl
  have hlift : l ≠ .primitive := by
    rintro rfl
    exact hl rfl
  refine ⟨?_, hno⟩
  rcases hchain with ⟨rfl, rfl⟩ | hchain
  · rw [List.append_nil]
    exact .lift hlift hspans
  · refine hchain _ _ ?_
    cases l with
    | power => exact hspans
    | _ => exact .lift hlift hspans

theorem noOperator_of_nil {l : Level} (h : l.operators = []) (rest : List Token) :
    NoOperator l rest := by
  intro t _ hm
  rw [h] at hm
  cases hm

/-- `not`, or the next level. -/
theorem expression_negation (ih : SoundWithin n) :
    Follows (Parse.expression (n + 1) .negation) (ReadsExpression .negation) := by
  intro done rest σ rs e s h
  obtain ⟨t, ts, rfl⟩ := (needsToken_accept _ _).bind.exists_cons h
  rw [Parse.expression, accept_one_then (by decide)] at h
  split at h
  · rename_i hk
    obtain ⟨operand, s₁, hoperand, h⟩ := EStateM.bind_eq_ok.mp h
    obtain ⟨hmk, rfl⟩ := ofExcept_eq_ok h
    obtain ⟨p, -, rfl⟩ := pos_eq_ok_of_map hmk
    obtain ⟨seg, rest', new, hreach, hd⟩ := ih.expression .negation hoperand
    refine ⟨t :: seg, rest', new, hreach.cons, fun hnew => ⟨?_, noOperator_of_nil rfl _⟩⟩
    have hspans := (hd hnew).1
    rw [placeBefore_concat] at hspans
    exact .negation hk hspans
  · obtain ⟨seg, rest', new, hreach, hd⟩ := ih.expression .equality h
    refine ⟨seg, rest', new, hreach, fun hnew => ⟨?_, noOperator_of_nil rfl _⟩⟩
    exact .lift (by decide) (hd hnew).1

/-- A minus sign, or the next level. -/
theorem expression_sign (ih : SoundWithin n) :
    Follows (Parse.expression (n + 1) .sign) (ReadsExpression .sign) := by
  intro done rest σ rs e s h
  obtain ⟨t, ts, rfl⟩ := (needsToken_accept _ _).bind.exists_cons h
  rw [Parse.expression, accept_one_then (by decide)] at h
  split at h
  · rename_i hk
    rw [EStateM.bind_of_ok textAt_one_back] at h
    obtain ⟨operand, s₁, hoperand, h⟩ := EStateM.bind_eq_ok.mp h
    obtain ⟨hmk, rfl⟩ := ofExcept_eq_ok h
    obtain ⟨p, -, rfl⟩ := pos_eq_ok_of_map hmk
    obtain ⟨seg, rest', new, hreach, hd⟩ := ih.expression .sign hoperand
    refine ⟨t :: seg, rest', new, hreach.cons, fun hnew => ⟨?_, noOperator_of_nil rfl _⟩⟩
    have hspans := (hd hnew).1
    rw [placeBefore_concat] at hspans
    exact .sign hk hspans
  · obtain ⟨seg, rest', new, hreach, hd⟩ := ih.expression .power h
    refine ⟨seg, rest', new, hreach, fun hnew => ⟨?_, noOperator_of_nil rfl _⟩⟩
    exact .lift (by decide) (hd hnew).1

/-! ## Parts without operators -/

/-- What follows a mistake is promised nothing, for the mistake has been reported. -/
theorem follows_mistake {α : Type} {problem : GrammarProblem} {a b : α} {done rest : List Token}
    {σ : Scopes} {rs : List Diagnostic} {s : ParseState}
    (h : (declareError problem >>= fun _ => pure a) (between done rest σ rs) = .ok b s) :
    b = a ∧ ∃ seg rest' new, Reached done rest rs seg rest' new σ s ∧ new ≠ [] := by
  obtain ⟨_, s', hd, h⟩ := EStateM.bind_eq_ok.mp h
  obtain ⟨rfl, rfl⟩ := EStateM.pure_eq_ok.mp h
  exact ⟨rfl, exists_reached_of_declareError hd⟩

/-- A literal that is one token. -/
theorem follows_token {t : Token} {ts done : List Token} {σ : Scopes} {rs : List Diagnostic}
    {a e : Node} {s : ParseState}
    (h : (.ok a (between (done ++ [t]) ts σ rs) : EStateM.Result Fault ParseState Node) = .ok e s)
    (hd : Spans (placeBefore done (t :: ts)) [t] (.expression .primitive a)) :
    ∃ seg rest' new, Reached done (t :: ts) rs seg rest' new σ s ∧
      (new = [] → ReadsExpression .primitive (placeBefore done (t :: ts)) seg rest' e) := by
  cases h
  exact ⟨[t], ts, [], Reached.single, fun _ => ⟨hd, noOperator_of_nil rfl _⟩⟩

/-- An expression in parentheses. -/
theorem follows_group (ih : SoundWithin n) {t : Token} {ts done : List Token} {σ : Scopes}
    {rs : List Diagnostic} {e : Node} {s : ParseState} (hk : t.kind = .leftParen)
    (h : (do
        let node ← Parse.expression n .disjunction
        if ← expect .rightParen .openParenthesis then return node
        else return .empty (placeBefore done (t :: ts)) : Parse Node)
      (between (done ++ [t]) ts σ rs) = .ok e s) :
    ∃ seg rest' new, Reached done (t :: ts) rs seg rest' new σ s ∧
      (new = [] → ReadsExpression .primitive (placeBefore done (t :: ts)) seg rest' e) := by
  obtain ⟨node, s₁, hnode, h⟩ := EStateM.bind_eq_ok.mp h
  obtain ⟨seg, rest', new, hreach, hd⟩ := ih.expression .disjunction hnode
  obtain ⟨closed, s₂, hclosed, h⟩ := EStateM.bind_eq_ok.mp h
  rw [hreach.state] at hclosed
  obtain ⟨u, us, rfl⟩ := (needsToken_expect _ _).exists_cons hclosed
  rw [expect_between _ (by decide)] at hclosed
  split at hclosed
  · rename_i hu
    cases hclosed
    rw [if_pos rfl] at h
    obtain ⟨rfl, rfl⟩ := EStateM.pure_eq_ok.mp h
    refine ⟨t :: (seg ++ [u]), us, new, hreach.concat.cons, ?_⟩
    intro hnew
    refine ⟨?_, noOperator_of_nil rfl _⟩
    have hspans := (hd hnew).1
    rw [placeBefore_concat] at hspans
    exact .group hk hu hspans
  · -- the missing parenthesis has been reported, so nothing is promised
    obtain ⟨rfl, seg', rest'', new', hreach', hne⟩ := follows_mistake hclosed
    rw [if_neg Bool.false_ne_true] at h
    obtain ⟨-, rfl⟩ := EStateM.pure_eq_ok.mp h
    refine ⟨t :: (seg ++ seg'), rest'', new ++ new', (hreach.trans hreach').cons, ?_⟩
    intro hnew
    exact absurd (List.append_eq_nil_iff.mp hnew).2 hne

/-- A name, or a call of it. -/
theorem follows_name (ih : SoundWithin n) {t : Token} {ts done : List Token} {σ : Scopes}
    {rs : List Diagnostic} {e : Node} {s : ParseState} (hk : t.kind = .identifier)
    (h : (do
        if ← accept [.leftParen] then Parse.call n
        else
          let name ← look Cursor.previous
          return .identifier name.text name.pos : Parse Node)
      (between (done ++ [t]) ts σ rs) = .ok e s) :
    ∃ seg rest' new, Reached done (t :: ts) rs seg rest' new σ s ∧
      (new = [] → ReadsExpression .primitive (placeBefore done (t :: ts)) seg rest' e) := by
  obtain ⟨u, us, rfl⟩ := (needsToken_accept _ _).bind.exists_cons h
  rw [accept_one_then (by decide)] at h
  split at h
  · rename_i hu
    obtain ⟨seg, rest', new, hreach, hd⟩ := ih.call h
    refine ⟨t :: u :: seg, rest', new, hreach.cons.cons, ?_⟩
    intro hnew
    obtain ⟨args, seg', r, rfl, rfl, hrp, hargs⟩ := hd hnew
    exact ⟨.call hk hu hrp hargs, noOperator_of_nil rfl _⟩
  · rw [EStateM.bind_of_ok previous_between] at h
    exact follows_token h (.name hk)

/-- Parts without operators. -/
theorem primitive_succ (ih : SoundWithin n) :
    Follows (Parse.primitive (n + 1)) (ReadsExpression .primitive) := by
  intro done rest σ rs e s h
  obtain ⟨t, ts, rfl⟩ :=
    (needsToken_place fun _ => (needsToken_accept _ _).bind).exists_cons h
  rw [primitive_between] at h
  split at h
  · rename_i hk
    exact follows_token h (.number hk)
  split at h
  · rename_i hk
    exact follows_token h (.text hk)
  split at h
  · rename_i hk
    exact follows_token h (.truth hk)
  split at h
  · rename_i hk
    exact follows_token h (.falsehood hk)
  split at h
  · rename_i hk
    exact follows_token h (.nothing hk)
  split at h
  · rename_i hk
    exact follows_group ih hk h
  split at h
  · rename_i hk
    exact follows_name ih hk h
  · obtain ⟨-, seg, rest', new, hreach, hne⟩ := follows_mistake h
    exact ⟨seg, rest', new, hreach, fun hnew => absurd hnew hne⟩

/-! ## Calls -/

theorem arguments_succ (ih : SoundWithin n) :
    Follows (Parse.arguments (n + 1)) ReadsArguments := by
  intro done rest σ rs es s h
  rw [Parse.arguments] at h
  obtain ⟨arg, s₁, harg, h⟩ := EStateM.bind_eq_ok.mp h
  obtain ⟨seg, rest', new, hreach, hd⟩ := ih.expression .disjunction harg
  rw [hreach.state] at h
  obtain ⟨u, us, rfl⟩ := (needsToken_accept _ _).bind.exists_cons h
  rw [accept_one_then (by decide)] at h
  split at h
  · rename_i hu
    obtain ⟨more, s₂, hmore, h⟩ := EStateM.bind_eq_ok.mp h
    obtain ⟨rfl, rfl⟩ := EStateM.pure_eq_ok.mp h
    have hreach₁ := hreach.concat
    rw [List.append_assoc] at hmore
    obtain ⟨seg', rest'', new', hreach', hd'⟩ := ih.arguments hmore
    refine ⟨seg ++ [u] ++ seg', rest'', new ++ new', hreach₁.trans hreach', ?_⟩
    intro hnew
    obtain ⟨rfl, rfl⟩ := List.append_eq_nil_iff.mp hnew
    obtain ⟨args, seg'', r, rfl, rfl, hr', hargs⟩ := hd' rfl
    rw [← List.append_assoc, placeBefore_concat] at hargs
    refine ⟨arg :: args, seg ++ u :: seg'', r, rfl, by simp, hr', ?_⟩
    exact .more (hd rfl).1 hu hargs
  · rw [accept_one_then (by decide)] at h
    split at h
    · rename_i hu
      obtain ⟨rfl, rfl⟩ := EStateM.pure_eq_ok.mp h
      refine ⟨seg ++ [u], us, new, hreach.concat, ?_⟩
      intro hnew
      exact ⟨[arg], seg, u, rfl, rfl, hu, .last (hd hnew).1⟩
    · obtain ⟨-, seg', rest'', new', hreach', hne⟩ := follows_mistake h
      refine ⟨seg ++ seg', rest'', new ++ new', hreach.trans hreach', ?_⟩
      intro hnew
      exact absurd (List.append_eq_nil_iff.mp hnew).2 hne

theorem call_succ (ih : SoundWithin n) : FollowsCall (n + 1) := by
  intro done rest t l σ rs e s h
  rw [Parse.call, EStateM.bind_of_ok textAt_two_back] at h
  obtain ⟨es, s₁, hargs, h⟩ := EStateM.bind_eq_ok.mp h
  obtain ⟨seg, rest', new, hreach, hd⟩ := ih.arguments hargs
  rw [placeBefore_concat] at hd
  cases es with
  | some args =>
    obtain ⟨rfl, rfl⟩ := EStateM.pure_eq_ok.mp h
    refine ⟨seg, rest', new, hreach, ?_⟩
    intro hnew
    obtain ⟨args', seg', r, heq, rfl, hr', hspans⟩ := hd hnew
    cases heq
    exact ⟨args, seg', r, rfl, rfl, hr', hspans⟩
  | none =>
    -- arguments are missing only after a report, so nothing is promised
    obtain ⟨p, s₂, hp, h⟩ := EStateM.bind_eq_ok.mp h
    obtain ⟨-, rfl⟩ := EStateM.pure_eq_ok.mp h
    obtain rfl := state_of_place hp
    refine ⟨seg, rest', new, hreach, ?_⟩
    intro hnew
    obtain ⟨args', seg', r, heq, -⟩ := hd hnew
    cases heq

theorem expression_succ (ih : SoundWithin n) (l : Level) :
    Follows (Parse.expression (n + 1) l) (ReadsExpression l) := by
  cases l with
  | negation => exact expression_negation ih
  | sign => exact expression_sign ih
  | primitive => exact ih.primitive
  | disjunction | conjunction | equality | comparison | sum | product | power =>
    exact expression_chained ih (by decide)

/-- A reader without a budget returns nothing, so it follows every rule. -/
theorem follows_throw {α : Type} {P : Pos → List Token → List Token → α → Prop} :
    Follows (throw .exhausted) P := by
  intro done rest σ rs a s h
  cases h

/-- **The readers of expressions follow the grammar**, whatever the budget. -/
theorem all : ∀ n, SoundWithin n
  | 0 =>
    { expression := fun _ => follows_throw
      chain := fun _ _ => follows_throw
      primitive := follows_throw
      call := fun h => nomatch h
      arguments := follows_throw }
  | n + 1 =>
    have ih := all n
    { expression := expression_succ ih
      chain := chain_succ ih
      primitive := primitive_succ ih
      call := call_succ ih
      arguments := arguments_succ ih }

end SoundWithin

end Scriptlet
