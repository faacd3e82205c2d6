import Scriptlet.Proofs.ExpressionSoundness

/-! # Reading goes forward

Whatever tokens come, in whatever order: if the last of them, and no other, marks the end, then
every reader of the grammar that has enough budget for the tokens ahead comes to an end. It never
goes back, it never leaves the list, and the only fault that it can meet is that a node was to be
made of a part that has no place.

After a mistake, tokens are passed over up to the next one at which reading can go on, and this can
be none at all. So the budget cannot be measured by mistakes: what decreases is the number of tokens
ahead together with the depth of the calls between two tokens. The one reader of which more is
needed is that of statements. It is called in a loop, and there it always passes over a token.
-/
namespace Scriptlet

/-! ## Where reading stands -/

namespace ParseState

/-- Reading stands at a token of a list that ends once. -/
def Ready (s : ParseState) : Prop :=
  ∃ done rest, s = between done rest s.scopes s.reports ∧ EndsOnce rest

/-- The number of tokens that have not been read. -/
def ahead (s : ParseState) : Nat :=
  s.cursor.tokens.size - s.cursor.index

/-- Reading went on, over some tokens or none, and stands at a token again. -/
structure LeadsTo (s s' : ParseState) : Prop where
  tokens : s'.cursor.tokens = s.cursor.tokens
  index : s.cursor.index ≤ s'.cursor.index
  ready : s'.Ready

variable {s s' s'' : ParseState} {done rest : List Token} {t : Token} {σ : Scopes}
  {rs : List Diagnostic}

theorem ready_between (h : EndsOnce rest) : (between done rest σ rs).Ready :=
  ⟨done, rest, rfl, h⟩

/-- A state in which reading is ready, with the current token and those behind it. -/
theorem Ready.exists_between (h : s.Ready) :
    ∃ done t rest σ rs, s = between done (t :: rest) σ rs ∧ EndsOnce (t :: rest) := by
  obtain ⟨done, rest, hs, hends⟩ := h
  obtain ⟨t, rest, rfl⟩ := List.exists_cons_of_ne_nil hends.ne_nil
  exact ⟨done, t, rest, s.scopes, s.reports, hs, hends⟩

@[simp] theorem ahead_between : (between done rest σ rs).ahead = rest.length := by
  simp [ahead, between]

theorem Ready.ahead_pos (h : s.Ready) : 0 < s.ahead := by
  obtain ⟨done, t, rest, σ, rs, rfl, -⟩ := h.exists_between
  rw [ahead_between]
  exact Nat.succ_pos _

/-- Where reading is ready, the index lies in the list. -/
theorem Ready.index_lt (h : s.Ready) : s.cursor.index < s.cursor.tokens.size :=
  Nat.lt_of_sub_pos h.ahead_pos

theorem LeadsTo.refl (h : s.Ready) : s.LeadsTo s :=
  ⟨rfl, Nat.le_refl _, h⟩

theorem LeadsTo.trans (h : s.LeadsTo s') (h' : s'.LeadsTo s'') : s.LeadsTo s'' :=
  ⟨h'.tokens.trans h.tokens, Nat.le_trans h.index h'.index, h'.ready⟩

theorem LeadsTo.ahead_le (h : s.LeadsTo s') : s'.ahead ≤ s.ahead := by
  rw [ahead, ahead, h.tokens]
  exact Nat.sub_le_sub_left h.index _

theorem LeadsTo.ahead_lt (h : s.LeadsTo s') (hi : s.cursor.index < s'.cursor.index) :
    s'.ahead < s.ahead := by
  have hlt := h.ready.index_lt
  rw [h.tokens] at hlt
  rw [ahead, ahead, h.tokens]
  omega

/-- Behind a token that does not mark the end. -/
theorem leadsTo_concat (h : EndsOnce (t :: rest)) (ht : t.kind ≠ .endOfFile) :
    (between done (t :: rest) σ rs).LeadsTo (between (done ++ [t]) rest σ rs) where
  tokens := by simp [between]
  index := by simp [between]
  ready := ready_between (h.tail ht)

/-- Behind a part of the tokens ahead. -/
theorem leadsTo_append {seg rest' : List Token} {σ' : Scopes} {rs' : List Diagnostic}
    (hsplit : rest = seg ++ rest') (h : EndsOnce rest') :
    (between done rest σ rs).LeadsTo (between (done ++ seg) rest' σ' rs') where
  tokens := by simp [between, hsplit]
  index := by simp [between]
  ready := ready_between h

/-- Scopes and reports have nothing to do with where reading stands. -/
theorem leadsTo_of_cursor (h : s.Ready) (hcursor : s'.cursor = s.cursor) : s.LeadsTo s' := by
  refine ⟨by rw [hcursor], Nat.le_of_eq (by rw [hcursor]), ?_⟩
  obtain ⟨done, rest, hs, hends⟩ := h
  have hc : s.cursor = { tokens := (done ++ rest).toArray, index := done.length } :=
    congrArg ParseState.cursor hs
  refine ⟨done, rest, ?_, hends⟩
  obtain ⟨cursor, scopes, reports⟩ := s'
  rw [show cursor = s.cursor from hcursor, hc]
  rfl

end ParseState

open ParseState

/-! ## How a reader ends -/

variable {α β : Type}

/-- Seen from the state `s`, a reader ended in a state further on, either with a result of which `Q`
holds, or because a node was to be made of a part without a place. -/
def Goes (s : ParseState) (Q : α → ParseState → Prop) : EStateM.Result Fault ParseState α → Prop
  | .ok a s' => s.LeadsTo s' ∧ Q a s'
  | .error f s' => s.LeadsTo s' ∧ ∃ kind, f = .missingField kind "line"

/-- What is asked of a result of which nothing needs to be known. -/
def Anything (_ : α) (_ : ParseState) : Prop := True

namespace Goes

variable {s t t' : ParseState} {P Q : α → ParseState → Prop} {R : β → ParseState → Prop}
  {x : Parse α} {f : α → Parse β}

theorem ok {a : α} (h : s.LeadsTo t) (hQ : Q a t) : Goes s Q (.ok a t) := ⟨h, hQ⟩

theorem pure {a : α} (h : s.LeadsTo t) (hQ : Q a t) : Goes s Q ((Pure.pure a : Parse α) t) :=
  ⟨h, hQ⟩

theorem mono {r : EStateM.Result Fault ParseState α} (h : Goes s P r)
    (hPQ : ∀ a t, s.LeadsTo t → P a t → Q a t) : Goes s Q r := by
  cases r with
  | ok a t => exact ⟨h.1, hPQ a t h.1 h.2⟩
  | error f t => exact h

/-- What is seen from a state is seen from an earlier one. -/
theorem since {r : EStateM.Result Fault ParseState α} (hst : s.LeadsTo t) (h : Goes t Q r) :
    Goes s Q r := by
  cases r with
  | ok a t' => exact ⟨hst.trans h.1, h.2⟩
  | error f t' => exact ⟨hst.trans h.1, h.2⟩

/-- One reader after the other. -/
theorem bind (hx : Goes s P (x t)) (hf : ∀ a t', s.LeadsTo t' → P a t' → Goes s R (f a t')) :
    Goes s R ((x >>= f) t) := by
  cases h : x t with
  | ok a t' =>
    rw [h] at hx
    rw [EStateM.bind_of_ok h]
    exact hf a t' hx.1 hx.2
  | error e t' =>
    rw [h] at hx
    rw [EStateM.bind_of_error h]
    exact hx

/-- A first step that is known. -/
theorem step {a : α} (hx : x t = .ok a t') (hf : Goes s R (f a t')) : Goes s R ((x >>= f) t) := by
  rwa [EStateM.bind_of_ok hx]

/-- The result of a reader that is passed on in another form. -/
theorem map {g : α → β} (hx : Goes s P (x t)) (hg : ∀ a t', P a t' → R (g a) t') :
    Goes s R ((do return g (← x) : Parse β) t) :=
  hx.bind fun a t' ht' ha => ⟨ht', hg a t' ha⟩

end Goes

namespace Parse

variable {s t : ParseState} {Q : α → ParseState → Prop} {kinds : List TokenKind} {x y : Parse α}

/-! ## The small readers -/

/-- Whether the current token is of one of the kinds, and where reading stands then. -/
theorem goes_accept (hs : s.Ready)
    (hx : ∀ s', s.LeadsTo s' → s'.cursor.index = s.cursor.index + 1 → Goes s' Q (x s'))
    (hy : Goes s Q (y s)) :
    Goes s Q ((accept kinds >>= fun b => if b = true then x else y) s) := by
  obtain ⟨done, u, rest, σ, rs, rfl, hends⟩ := hs.exists_between
  rw [accept_then]
  split
  · rename_i hk
    have hs' : (between done (u :: rest) σ rs).LeadsTo (between (done ++ [u]) rest σ rs) :=
      leadsTo_concat hends hk.1
    exact (hx _ hs' (by simp [between])).since hs'
  · exact hy

/-- Behind a token the fewer tokens are ahead. -/
theorem ahead_succ {s' : ParseState} (h : s.LeadsTo s')
    (hi : s'.cursor.index = s.cursor.index + 1) : s'.ahead + 1 = s.ahead := by
  have hlt := h.ready.index_lt
  rw [h.tokens] at hlt
  rw [ahead, ahead, h.tokens]
  omega

theorem exists_place (hs : s.Ready) : ∃ p, place s = .ok p s := by
  obtain ⟨done, u, rest, σ, rs, rfl, -⟩ := hs.exists_between
  exact ⟨_, place_between (List.cons_ne_nil _ _)⟩

/-- The token some places back, if reading has gone so far. -/
theorem exists_get_back (hs : s.Ready) {k : Nat} (hk : k ≤ s.cursor.index) :
    ∃ u, s.cursor.get (-(k : Int)) = .ok u := by
  have hlt := hs.index_lt
  have hi : (s.cursor.index : Int) + -(k : Int) = ((s.cursor.index - k : Nat) : Int) := by omega
  have hget : s.cursor.index - k < s.cursor.tokens.size := by omega
  refine ⟨s.cursor.tokens[s.cursor.index - k], ?_⟩
  have hneg : ¬ (((s.cursor.index - k : Nat) : Int) < 0) := by omega
  simp only [Cursor.get, hi, if_neg hneg, Int.toNat_natCast]
  rw [Array.getElem?_eq_getElem hget]

theorem exists_textAt (hs : s.Ready) {k : Nat} (hk : k ≤ s.cursor.index) :
    ∃ text, textAt (-(k : Int)) s = .ok text s := by
  obtain ⟨u, hu⟩ := exists_get_back hs hk
  refine ⟨u.text, ?_⟩
  rw [textAt, look_apply, hu]
  rfl

theorem exists_look (hs : s.Ready) {k : Nat} (hk : k ≤ s.cursor.index) :
    ∃ u, look (fun c => c.get (-(k : Int))) s = .ok u s := by
  obtain ⟨u, hu⟩ := exists_get_back hs hk
  exact ⟨u, by rw [look_apply, hu]⟩

/-- A mistake leads on. -/
theorem goes_declareError (problem : GrammarProblem) (hs : s.Ready) :
    Goes s Anything (declareError problem s) := by
  obtain ⟨done, u, rest, σ, rs, rfl, hends⟩ := hs.exists_between
  obtain ⟨seg, rest', hsplit, hends', -, -, hd⟩ := declareError_between problem done σ rs hends
  rw [hd]
  exact .ok (leadsTo_append hsplit hends') trivial

/-- Asking for a token leads on, over it or over others. -/
theorem goes_expect (kind : TokenKind) (problem : GrammarProblem) (hs : s.Ready) :
    Goes s (fun b s' => b = true → s.cursor.index < s'.cursor.index) (expect kind problem s) := by
  refine goes_accept hs (fun s' hs' hi => .pure (.refl hs'.ready) fun _ => by omega) ?_
  exact (goes_declareError problem hs).bind fun _ s' hs' _ => .pure hs' nofun

theorem goes_check (kind : TokenKind) (hs : s.Ready) :
    Goes s (fun _ s' => s' = s) (check kind s) := by
  obtain ⟨done, u, rest, σ, rs, rfl, hends⟩ := hs.exists_between
  rw [check_between]
  exact .ok (.refl hs) rfl

/-- Making a node of a part is a fault if the part has no place. -/
theorem goes_ofExcept_map (n : Node) (f : Pos → Node) (h : t.LeadsTo s) :
    Goes t Anything (ofExcept (n.pos.map f) s) := by
  rw [Node.pos]
  cases n.pos? with
  | some p => exact .ok h trivial
  | none => exact ⟨h, _, rfl⟩

theorem goes_join (l : Level) (operator : String) (left right : Node) (h : t.LeadsTo s) :
    Goes t Anything (ofExcept (l.join operator left right) s) := by
  cases l <;> exact goes_ofExcept_map _ _ h

end Parse

/-! ## Expressions -/

/-- What a reader of expressions needs of the budget between two tokens. -/
def Level.depth (l : Level) : Nat :=
  11 - l.rank

theorem Level.depth_next {l : Level} (h : l ≠ .primitive) : l.next.depth + 1 = l.depth := by
  have hl := l.rank_le_nine
  have hn := l.next.rank_le_nine
  rw [depth, depth, Level.rank_next h] at *
  omega

theorem Level.depth_le (l : Level) : l.depth ≤ 11 :=
  Nat.sub_le _ _

theorem Level.two_le_depth (l : Level) : 2 ≤ l.depth := by
  have hl := l.rank_le_nine
  rw [depth]
  omega

/-- With this budget, and enough of it for the tokens ahead, all readers of expressions go on. -/
structure ExpressionsGo (n : Nat) : Prop where
  expression : ∀ (l : Level) {s : ParseState}, s.Ready → 20 * s.ahead + l.depth ≤ n →
    Goes s Anything (Parse.expression n l s)
  chain : ∀ (l : Level) (left : Node) {s : ParseState}, s.Ready → 20 * s.ahead + 1 ≤ n →
    Goes s Anything (Parse.chain n l left s)
  primitive : ∀ {s : ParseState}, s.Ready → 20 * s.ahead + 1 ≤ n →
    Goes s Anything (Parse.primitive n s)
  call : ∀ {s : ParseState}, s.Ready → 2 ≤ s.cursor.index → 20 * s.ahead + 13 ≤ n →
    Goes s Anything (Parse.call n s)
  arguments : ∀ {s : ParseState}, s.Ready → 20 * s.ahead + 12 ≤ n →
    Goes s Anything (Parse.arguments n s)

namespace ExpressionsGo

open Parse

variable {n : Nat} {s : ParseState}

theorem chain_succ (ih : ExpressionsGo n) (l : Level) (left : Node) (hs : s.Ready)
    (hn : 20 * s.ahead ≤ n) : Goes s Anything (Parse.chain (n + 1) l left s) := by
  refine goes_accept hs (fun s' hs' hi => ?_) (.pure (.refl hs) trivial)
  have ha := ahead_succ hs' hi
  have hd := l.rightSide.depth_le
  obtain ⟨operator, hoperator⟩ := exists_textAt hs'.ready (k := 1) (by omega)
  refine .step hoperator ?_
  refine (ih.expression l.rightSide hs'.ready (by omega)).bind fun right s₁ h₁ _ => ?_
  refine (goes_join l operator left right h₁).bind fun node s₂ h₂ _ => ?_
  have ha₂ := h₂.ahead_le
  exact (ih.chain l node h₂.ready (by omega)).since h₂

/-- The level of `not`, and that of signs. -/
theorem expression_prefixed (ih : ExpressionsGo n) (hs : s.Ready) {l : Level}
    (hl : l.operators = []) (hn : 20 * s.ahead + l.depth ≤ n + 1) :
    Goes s Anything (Parse.expression (n + 1) l s) := by
  cases l with
  | negation =>
    have hd : Level.equality.depth + 1 = Level.negation.depth := rfl
    refine goes_accept hs (fun s' hs' hi => ?_) (ih.expression .equality hs (by omega))
    have ha := ahead_succ hs' hi
    refine (ih.expression .negation hs'.ready (by omega)).bind fun operand s₁ h₁ _ => ?_
    exact goes_ofExcept_map _ _ h₁
  | sign =>
    have hd : Level.power.depth + 1 = Level.sign.depth := rfl
    refine goes_accept hs (fun s' hs' hi => ?_) (ih.expression .power hs (by omega))
    have ha := ahead_succ hs' hi
    obtain ⟨operator, hoperator⟩ := exists_textAt hs'.ready (k := 1) (by omega)
    refine .step hoperator ?_
    refine (ih.expression .sign hs'.ready (by omega)).bind fun operand s₁ h₁ _ => ?_
    exact goes_ofExcept_map _ _ h₁
  | primitive =>
    have hd : Level.primitive.depth = 2 := rfl
    exact ih.primitive hs (by omega)
  | _ => cases hl

theorem expression_succ (ih : ExpressionsGo n) (l : Level) (hs : s.Ready)
    (hn : 20 * s.ahead + l.depth ≤ n + 1) :
    Goes s Anything (Parse.expression (n + 1) l s) := by
  by_cases hl : l.operators = []
  · exact ih.expression_prefixed hs hl hn
  · have hd := Level.depth_next (l := l) (by rintro rfl; exact hl rfl)
    rw [SoundWithin.expression_of_operators hl]
    refine (ih.expression l.next hs (by omega)).bind fun left s₁ h₁ _ => ?_
    have ha₁ := h₁.ahead_le
    have hdepth := l.two_le_depth
    exact (ih.chain l left h₁.ready (by omega)).since h₁

theorem primitive_succ (ih : ExpressionsGo n) (hs : s.Ready) (hn : 20 * s.ahead ≤ n) :
    Goes s Anything (Parse.primitive (n + 1) s) := by
  obtain ⟨before, hbefore⟩ := exists_place hs
  refine .step hbefore ?_
  -- literals: the token is passed over, and looked back at
  refine goes_accept hs (fun s' hs' hi => ?_) ?_
  · obtain ⟨u, hu⟩ := exists_look hs'.ready (k := 1) (by omega)
    exact .step hu (.pure (.refl hs'.ready) trivial)
  refine goes_accept hs (fun s' hs' hi => ?_) ?_
  · obtain ⟨u, hu⟩ := exists_look hs'.ready (k := 1) (by omega)
    exact .step hu (.pure (.refl hs'.ready) trivial)
  refine goes_accept hs (fun s' hs' hi => ?_) ?_
  · obtain ⟨p, hp⟩ := exists_place hs'.ready
    exact .step hp (.pure (.refl hs'.ready) trivial)
  refine goes_accept hs (fun s' hs' hi => ?_) ?_
  · obtain ⟨p, hp⟩ := exists_place hs'.ready
    exact .step hp (.pure (.refl hs'.ready) trivial)
  refine goes_accept hs (fun s' hs' hi => .pure (.refl hs'.ready) trivial) ?_
  -- parentheses
  refine goes_accept hs (fun s' hs' hi => ?_) ?_
  · have ha := ahead_succ hs' hi
    have hd := Level.disjunction.depth_le
    refine (ih.expression .disjunction hs'.ready (by omega)).bind fun node s₁ h₁ _ => ?_
    refine ((goes_expect .rightParen .openParenthesis h₁.ready).since h₁).bind fun b s₂ h₂ _ => ?_
    cases b <;> exact .pure h₂ trivial
  -- names and calls
  refine goes_accept hs (fun s' hs' hi => ?_) ?_
  · have ha := ahead_succ hs' hi
    refine goes_accept hs'.ready (fun s₁ h₁ hi₁ => ?_) ?_
    · have ha₁ := ahead_succ h₁ hi₁
      exact ih.call h₁.ready (by omega) (by omega)
    · obtain ⟨u, hu⟩ := exists_look hs'.ready (k := 1) (by omega)
      exact .step hu (.pure (.refl hs'.ready) trivial)
  · exact (goes_declareError _ hs).bind fun _ s₁ h₁ _ => .pure h₁ trivial

theorem arguments_succ (ih : ExpressionsGo n) (hs : s.Ready) (hn : 20 * s.ahead + 11 ≤ n) :
    Goes s Anything (Parse.arguments (n + 1) s) := by
  refine (ih.expression .disjunction hs hn).bind fun arg s₁ h₁ _ => .since h₁ ?_
  have ha₁ := h₁.ahead_le
  refine goes_accept h₁.ready (fun s₂ h₂ hi₂ => ?_) ?_
  · have ha₂ := ahead_succ h₂ hi₂
    refine (ih.arguments h₂.ready (by omega)).map fun _ _ _ => trivial
  · refine goes_accept h₁.ready (fun s₂ h₂ _ => .pure (.refl h₂.ready) trivial) ?_
    exact (goes_declareError _ h₁.ready).bind fun _ s₂ h₂ _ => .pure h₂ trivial

theorem call_succ (ih : ExpressionsGo n) (hs : s.Ready) (hi : 2 ≤ s.cursor.index)
    (hn : 20 * s.ahead + 12 ≤ n) : Goes s Anything (Parse.call (n + 1) s) := by
  obtain ⟨callee, hcallee⟩ := exists_textAt hs hi
  refine .step hcallee ?_
  refine (ih.arguments hs hn).bind fun args s₁ h₁ _ => ?_
  cases args with
  | some args => exact .pure h₁ trivial
  | none =>
    obtain ⟨p, hp⟩ := exists_place h₁.ready
    exact .step hp (.pure h₁ trivial)

/-- With enough budget for the tokens ahead, all readers of expressions go on. -/
theorem all : ∀ n, ExpressionsGo n
  | 0 => by
    constructor
    · intro l s _ hn
      have hd := l.two_le_depth
      omega
    all_goals
      intros
      omega
  | n + 1 =>
    have ih := all n
    { expression := fun l _ hs hn => ih.expression_succ l hs hn
      chain := fun l left _ hs hn => ih.chain_succ l left hs (by omega)
      primitive := fun hs hn => ih.primitive_succ hs (by omega)
      call := fun hs hi hn => ih.call_succ hs hi (by omega)
      arguments := fun hs hn => ih.arguments_succ hs (by omega) }

end ExpressionsGo

/-! ## Simple statements -/

namespace Parse

variable {n : Nat} {s : ParseState}

/-- An expression as it stands in a statement. -/
theorem goes_expression (hs : s.Ready) (hn : 20 * s.ahead + 11 ≤ n) :
    Goes s Anything (expression n .disjunction s) :=
  (ExpressionsGo.all n).expression .disjunction hs hn

theorem goes_compoundValue (name : String) (hs : s.Ready) (hn : 20 * s.ahead + 11 ≤ n) :
    ∀ ops : List (TokenKind × Arithmetic), Goes s Anything (compoundValue n name ops s)
  | [] => .pure (.refl hs) trivial
  | (kind, op) :: ops => by
    refine goes_accept hs (fun s' hs' hi => ?_) (goes_compoundValue name hs hn ops)
    have ha := ahead_succ hs' hi
    obtain ⟨p, hp⟩ := exists_place hs'.ready
    refine .step hp ?_
    refine (goes_expression hs'.ready (by omega)).bind fun right s₁ h₁ _ => ?_
    exact (goes_ofExcept_map _ _ h₁).map fun _ _ _ => trivial

theorem goes_assignment (hs : s.Ready) (hi : 1 ≤ s.cursor.index) (hn : 20 * s.ahead + 11 ≤ n) :
    Goes s Anything (assignment n s) := by
  obtain ⟨name, hname⟩ := exists_textAt hs hi
  refine .step hname ?_
  obtain ⟨before, hbefore⟩ := exists_place hs
  refine .step hbefore ?_
  refine goes_accept hs (fun s' hs' hi => ?_) ?_
  · have ha := ahead_succ hs' hi
    refine (goes_expression hs'.ready (by omega)).bind fun value s₁ h₁ _ => ?_
    exact goes_ofExcept_map _ _ h₁
  · refine (goes_compoundValue name hs hn compoundAssignments).bind fun value s₁ h₁ _ => ?_
    cases value with
    | some value => exact goes_ofExcept_map _ _ h₁
    | none =>
      exact ((goes_declareError _ h₁.ready).since h₁).bind fun _ s₂ h₂ _ => .pure h₂ trivial

theorem goes_declarator (type : String) (isMutable : Bool) (hs : s.Ready)
    (hn : 20 * s.ahead + 11 ≤ n) : Goes s Anything (declarator n type isMutable s) := by
  obtain ⟨before, hbefore⟩ := exists_place hs
  refine .step hbefore ?_
  refine (goes_expect .identifier .missingName hs).bind fun found s₁ h₁ hfound => ?_
  cases found with
  | false => exact .pure h₁ trivial
  | true =>
    refine .since h₁ ?_
    have hlt := hfound rfl
    have ha₁ := h₁.ahead_le
    obtain ⟨name, hname⟩ := exists_textAt h₁.ready (k := 1) (by omega)
    refine .step hname ?_
    refine goes_accept h₁.ready (fun s₂ h₂ hi₂ => ?_) ?_
    · have ha₂ := ahead_succ h₂ hi₂
      refine (goes_expression h₂.ready (by omega)).bind fun value s₃ h₃ _ => ?_
      exact goes_ofExcept_map _ _ h₃
    · refine (goes_check .semicolon h₁.ready).bind fun isEnd s₂ h₂ _ => ?_
      cases isEnd with
      | true =>
        rw [if_pos rfl]
        exact goes_ofExcept_map _ _ h₂
      | false =>
        refine .since h₂ ((goes_check .comma h₂.ready).bind fun isComma s₃ h₃ _ => ?_)
        cases isComma with
        | true =>
          rw [if_pos rfl]
          exact goes_ofExcept_map _ _ h₃
        | false =>
          exact ((goes_declareError _ h₃.ready).since h₃).bind fun _ s₄ h₄ _ => .pure h₄ trivial

theorem goes_declarators (type : String) (isMutable : Bool) :
    ∀ {n : Nat} {s : ParseState}, s.Ready → 20 * s.ahead + 12 ≤ n →
      Goes s Anything (declarators n type isMutable s)
  | 0, s, _, hn => by omega
  | n + 1, s, hs, hn => by
    refine (goes_declarator type isMutable hs (by omega)).bind fun first s₁ h₁ _ => .since h₁ ?_
    have ha₁ := h₁.ahead_le
    refine goes_accept h₁.ready (fun s₂ h₂ hi₂ => ?_) (.pure (.refl h₁.ready) trivial)
    have ha₂ := ahead_succ h₂ hi₂
    exact (goes_declarators type isMutable h₂.ready (by omega)).map fun _ _ _ => trivial

theorem goes_declaration (before : Pos) (hs : s.Ready) (hi : 1 ≤ s.cursor.index)
    (hn : 20 * s.ahead + 12 ≤ n) : Goes s Anything (declaration n before s) := by
  refine goes_accept hs (fun s' hs' hi' => ?_) ?_
  · have ha := ahead_succ hs' hi'
    obtain ⟨introduced, hintroduced⟩ := exists_look hs'.ready (k := 2) (by omega)
    refine .step hintroduced ?_
    obtain ⟨type, htype⟩ := exists_textAt hs'.ready (k := 1) (by omega)
    refine .step htype ?_
    exact goes_declarators type _ hs'.ready (by omega)
  · exact (goes_declareError _ hs).bind fun _ s₁ h₁ _ => .pure h₁ trivial

theorem goes_openScope (scope : ScopeId) (hs : s.Ready) :
    Goes s Anything (openScope scope s) :=
  .ok (leadsTo_of_cursor hs rfl) trivial

end Parse

/-! ## Statements and blocks -/

namespace ParseState

/-- The kind of the current token; what lies behind the list counts as its end. -/
def kind (s : ParseState) : TokenKind :=
  (s.cursor.tokens[s.cursor.index]?.map Token.kind).getD .endOfFile

/-- A statement can begin here: the current token is neither a semicolon nor the end. -/
def AtStatement (s : ParseState) : Prop :=
  s.kind ≠ .semicolon ∧ s.kind ≠ .endOfFile

@[simp] theorem kind_between {done rest : List Token} {t : Token} {σ : Scopes}
    {rs : List Diagnostic} : (between done (t :: rest) σ rs).kind = t.kind := by
  rw [kind, between, Parse.getElem?_between]
  rfl

end ParseState

/-- Reading has passed over a token. -/
def Passes (s : ParseState) (_ : α) (s' : ParseState) : Prop :=
  s.cursor.index < s'.cursor.index

/-- What goes on behind a token has passed over it. -/
theorem Goes.passes {s s' : ParseState} {r : EStateM.Result Fault ParseState α}
    (h : Goes s' Anything r) (hs' : s.LeadsTo s') (hi : s.cursor.index < s'.cursor.index) :
    Goes s (Passes s) r :=
  (h.mono fun _ _ ht _ => Nat.lt_of_lt_of_le hi ht.index).since hs'

/-- With this budget, and enough of it for the tokens ahead, all readers of statements go on, and
one of which a statement can begin passes over a token. -/
structure StatementsGo (n : Nat) : Prop where
  statement : ∀ (scope : ScopeId) {s : ParseState}, s.Ready → 20 * s.ahead + 1 ≤ n →
    Goes s (fun _ s' => s.AtStatement → s.cursor.index < s'.cursor.index)
      (Parse.statement n scope s)
  conditional : ∀ (scope : ScopeId) {s : ParseState}, s.Ready → 20 * s.ahead + 13 ≤ n →
    Goes s Anything (Parse.conditional n scope s)
  branches : ∀ (scope : ScopeId) {s : ParseState}, s.Ready → 20 * s.ahead + 12 ≤ n →
    Goes s Anything (Parse.branches n scope s)
  block : ∀ (scope : ScopeId) {s : ParseState}, s.Ready → 20 * s.ahead + 1 ≤ n →
    Goes s Anything (Parse.block n scope s)
  blockBody : ∀ (scope : ScopeId) {s : ParseState}, s.Ready → 20 * s.ahead + 2 ≤ n →
    Goes s Anything (Parse.blockBody n scope s)

namespace StatementsGo

open Parse

variable {n : Nat} {s : ParseState}

theorem conditional_succ (ih : StatementsGo n) (scope : ScopeId) (hs : s.Ready)
    (hn : 20 * s.ahead + 12 ≤ n) : Goes s Anything (Parse.conditional (n + 1) scope s) := by
  rw [Parse.conditional]
  refine (ih.branches scope hs hn).bind fun bs s₁ h₁ _ => .since h₁ ?_
  have ha₁ := h₁.ahead_le
  refine goes_accept h₁.ready (fun s₂ h₂ hi₂ => ?_) ?_
  · have ha₂ := ahead_succ h₂ hi₂
    exact (ih.block scope h₂.ready (by omega)).map fun _ _ _ => trivial
  · obtain ⟨p, hp⟩ := exists_place h₁.ready
    exact .step hp (.pure (.refl h₁.ready) trivial)

theorem branches_succ (ih : StatementsGo n) (scope : ScopeId) (hs : s.Ready)
    (hn : 20 * s.ahead + 11 ≤ n) : Goes s Anything (Parse.branches (n + 1) scope s) := by
  rw [Parse.branches]
  refine (goes_expression hs hn).bind fun c s₁ h₁ _ => .since h₁ ?_
  have ha₁ := h₁.ahead_le
  refine (ih.block scope h₁.ready (by omega)).bind fun b s₂ h₂ _ => .since h₂ ?_
  have ha₂ := h₂.ahead_le
  refine goes_accept h₂.ready (fun s₃ h₃ hi₃ => ?_) (.pure (.refl h₂.ready) trivial)
  have ha₃ := ahead_succ h₃ hi₃
  exact (ih.branches scope h₃.ready (by omega)).map fun _ _ _ => trivial

theorem block_succ (ih : StatementsGo n) (scope : ScopeId) (hs : s.Ready)
    (hn : 20 * s.ahead ≤ n) : Goes s Anything (Parse.block (n + 1) scope s) := by
  rw [Parse.block]
  obtain ⟨before, hbefore⟩ := exists_place hs
  refine .step hbefore ?_
  refine (goes_expect .leftBrace .missingBlock hs).bind fun found s₁ h₁ hfound => ?_
  cases found with
  | false => exact .pure h₁ trivial
  | true =>
    have ha₁ := h₁.ahead_lt (hfound rfl)
    refine .since h₁ ((goes_openScope scope h₁.ready).bind fun inner s₂ h₂ _ => .since h₂ ?_)
    have ha₂ := h₂.ahead_le
    refine (ih.blockBody inner h₂.ready (by omega)).bind fun body s₃ h₃ _ => ?_
    cases body <;> exact .pure h₃ trivial

theorem blockBody_succ (ih : StatementsGo n) (scope : ScopeId) (hs : s.Ready)
    (hn : 20 * s.ahead + 1 ≤ n) : Goes s Anything (Parse.blockBody (n + 1) scope s) := by
  obtain ⟨done, t, rest, σ, rs, rfl, hends⟩ := hs.exists_between
  rw [blockBody_between]
  rw [ahead_between, List.length_cons] at hn
  split
  · rename_i ht
    have hs' : (between done (t :: rest) σ rs).LeadsTo (between (done ++ [t]) rest σ rs) :=
      leadsTo_concat hends (by rw [ht]; decide)
    exact (ih.blockBody scope hs'.ready (by rw [ahead_between]; omega)).since hs'
  split
  · exact (goes_declareError _ hs).bind fun _ s₁ h₁ _ => .pure h₁ trivial
  split
  · rename_i ht
    exact .ok (leadsTo_concat hends (by rw [ht]; decide)) trivial
  · rename_i hsemi hend _
    refine (ih.statement scope hs (by rw [ahead_between, List.length_cons]; omega)).bind
      fun first s₁ h₁ hpass => ?_
    -- the statement has passed over a token, so the rest of the block needs less
    have hlt := hpass (by rw [AtStatement, kind_between]; exact ⟨hsemi, hend⟩)
    have ha := h₁.ahead_lt hlt
    rw [ahead_between, List.length_cons] at ha
    exact ((ih.blockBody scope h₁.ready (by omega)).since h₁).map fun _ _ _ => trivial

/-- The kinds of tokens at which reading goes on after a mistake. Of each a statement can begin,
but for the semicolon. -/
theorem mem_of_resumesAt {k : TokenKind} (h : resumesAt k = true) :
    k ∈ [TokenKind.semicolon, .varWord, .letWord, .identifier, .ifWord, .whileWord, .loopWord] := by
  revert h
  cases k <;> decide

/-- A mistake at a token at which reading cannot go on passes over it. -/
theorem passes_declareError (problem : GrammarProblem) {done rest : List Token} {t : Token}
    {σ : Scopes} {rs : List Diagnostic} (hends : EndsOnce (t :: rest)) (ht : stopsAt t = false) :
    Goes (between done (t :: rest) σ rs) (Passes (between done (t :: rest) σ rs))
      (declareError problem (between done (t :: rest) σ rs)) := by
  obtain ⟨seg, rest', hsplit, hends', -, ⟨u, us, hu, hstops⟩, hd⟩ :=
    declareError_between problem done σ rs hends
  rw [hd]
  refine .ok (leadsTo_append hsplit hends') ?_
  cases seg with
  | nil =>
    rw [List.nil_append, hu] at hsplit
    cases hsplit
    cases ht.symm.trans hstops
  | cons v seg => simp [Passes, between]

theorem statement_succ (ih : StatementsGo n) (scope : ScopeId) (hs : s.Ready)
    (hn : 20 * s.ahead ≤ n) :
    Goes s (fun _ s' => s.AtStatement → s.cursor.index < s'.cursor.index)
      (Parse.statement (n + 1) scope s) := by
  obtain ⟨done, t, rest, σ, rs, rfl, hends⟩ := hs.exists_between
  rw [ahead_between, List.length_cons] at hn
  -- what is read behind the first token has passed over it
  have hfirst : ∀ {r : EStateM.Result Fault ParseState (List Node)}, t.kind ≠ .endOfFile →
      Goes (between (done ++ [t]) rest σ rs) Anything r →
      Goes (between done (t :: rest) σ rs) (fun _ s' =>
        (between done (t :: rest) σ rs).AtStatement →
          (between done (t :: rest) σ rs).cursor.index < s'.cursor.index) r := by
    intro r ht h
    exact (h.passes (leadsTo_concat hends ht) (by simp [between])).mono fun _ _ _ h _ => h
  have hready : t.kind ≠ .endOfFile → (between (done ++ [t]) rest σ rs).Ready :=
    fun ht => ready_between (hends.tail ht)
  have hahead : (between (done ++ [t]) rest σ rs).ahead = rest.length := ahead_between
  have hindex : (between (done ++ [t]) rest σ rs).cursor.index = done.length + 1 := by
    simp [between]
  rw [statement_between]
  split
  · rename_i ht
    exact hfirst ht.1 (goes_declaration _ (hready ht.1) (by omega) (by omega))
  split
  · rename_i ht
    have hne : t.kind ≠ .endOfFile := by rw [ht]; decide
    refine hfirst hne (goes_accept (hready hne) (fun s' hs' hi => ?_) ?_)
    · have ha := ahead_succ hs' hi
      exact ((ExpressionsGo.all n).call hs'.ready (by omega) (by omega)).map fun _ _ _ => trivial
    · exact (goes_assignment (hready hne) (by omega) (by omega)).map fun _ _ _ => trivial
  split
  · rename_i ht
    have hne : t.kind ≠ .endOfFile := by rw [ht]; decide
    exact hfirst hne ((ih.conditional scope (hready hne) (by omega)).map fun _ _ _ => trivial)
  split
  · rename_i ht
    have hne : t.kind ≠ .endOfFile := by rw [ht]; decide
    refine hfirst hne ((goes_expression (hready hne) (by omega)).bind fun c s₁ h₁ _ => ?_)
    have ha₁ := h₁.ahead_le
    exact ((ih.block scope h₁.ready (by omega)).since h₁).map fun _ _ _ => trivial
  split
  · rename_i ht
    have hne : t.kind ≠ .endOfFile := by rw [ht]; decide
    exact hfirst hne ((ih.block scope (hready hne) (by omega)).map fun _ _ _ => trivial)
  split
  · rename_i ht
    exact hfirst (by rw [ht]; decide) (.ok (.refl (hready (by rw [ht]; decide))) trivial)
  split
  · rename_i ht
    exact hfirst (by rw [ht]; decide) (.ok (.refl (hready (by rw [ht]; decide))) trivial)
  · rename_i hvar hname hif hwhile hloop hbreak hcontinue
    by_cases hat : (between done (t :: rest) σ rs).AtStatement
    · have hstops : stopsAt t = false := by
        rw [AtStatement, kind_between] at hat
        rw [stopsAt, Bool.or_eq_false_iff]
        refine ⟨decide_eq_false hat.2, Bool.eq_false_iff.mpr fun hr => ?_⟩
        have hmem := mem_of_resumesAt hr
        simp only [List.mem_cons, List.not_mem_nil, or_false] at hmem hvar
        grind
      exact (passes_declareError _ hends hstops).bind fun _ s₁ h₁ hlt => .pure h₁ fun _ => hlt
    · exact (goes_declareError _ hs).bind fun _ s₁ h₁ _ => .pure h₁ fun h => absurd h hat

theorem all : ∀ n, StatementsGo n
  | 0 => by
    constructor
    all_goals
      intros
      omega
  | n + 1 =>
    have ih := all n
    { statement := fun scope _ hs hn => ih.statement_succ scope hs (by omega)
      conditional := fun scope _ hs hn => ih.conditional_succ scope hs (by omega)
      branches := fun scope _ hs hn => ih.branches_succ scope hs (by omega)
      block := fun scope _ hs hn => ih.block_succ scope hs (by omega)
      blockBody := fun scope _ hs hn => ih.blockBody_succ scope hs (by omega) }

end StatementsGo

/-- A program is read to its end. -/
theorem Parse.goes_programBody : ∀ {n : Nat} {s : ParseState}, s.Ready → 20 * s.ahead + 2 ≤ n →
    Goes s (fun _ s' => s'.ahead = 1) (Parse.programBody n s)
  | 0, _, _, hn => by omega
  | n + 1, s, hs, hn => by
    obtain ⟨done, t, rest, σ, rs, rfl, hends⟩ := hs.exists_between
    rw [programBody_between]
    rw [ahead_between, List.length_cons] at hn
    split
    · rename_i ht
      have hs' : (between done (t :: rest) σ rs).LeadsTo (between (done ++ [t]) rest σ rs) :=
        leadsTo_concat hends (by rw [ht]; decide)
      exact (goes_programBody hs'.ready (by rw [ahead_between]; omega)).since hs'
    split
    · rename_i ht
      refine .ok (.refl hs) ?_
      rw [ahead_between, hends.tail_eq_nil ht]
      rfl
    · rename_i hsemi hend
      refine ((StatementsGo.all n).statement Scopes.root hs
        (by rw [ahead_between, List.length_cons]; omega)).bind fun first s₁ h₁ hpass => ?_
      have hlt := hpass (by rw [AtStatement, kind_between]; exact ⟨hsemi, hend⟩)
      have ha := h₁.ahead_lt hlt
      rw [ahead_between, List.length_cons] at ha
      exact ((goes_programBody h₁.ready (by omega)).since h₁).map fun _ _ h => h

end Scriptlet
