import Scriptlet.Proofs.TokenGrammar

/-! # What the grammar spans is read

If the tokens of a segment make an expression, and the token behind the segment does not go on with
it, then the reader of that level reads exactly the segment and returns exactly its node, with no
report, or a call in the node is exposed. A call has no place, so where one is exposed the reader asks
for the place of a call, and that is a fault (`Becomes`).

Operators of one level are derived from the left but read in a loop. The statement for which the
induction works says where reading stands behind a derived segment: in front of the further
operators of its level (`Opens`). If none comes, the node is returned (`Completes`).

A budget of twelve for each token of the segment is enough: the calls between two tokens go down
through the ten levels at most once.
-/
namespace Scriptlet

open ParseState Parse

/-! ## Reading up to an exposed call -/

/-- The fault of asking a call for its place. -/
def Fault.callPlace : Fault :=
  .missingField "CallNode" "line"

/-- Reading ends as `r'` says or, if a call is exposed, with the fault that a call has no place. -/
def Becomes {α : Type} (exposed : Bool) (r r' : EStateM.Result Fault ParseState α) : Prop :=
  if exposed then ∃ s, r = .error .callPlace s else r = r'

namespace Becomes
variable {α β : Type} {c d : Bool} {r r' r'' : EStateM.Result Fault ParseState α}

theorem refl (r : EStateM.Result Fault ParseState α) : Becomes false r r := rfl

theorem of_eq (h : r = r') : Becomes false r r' := h

theorem cast (h : Becomes c r r') (hcd : c = d) : Becomes d r r' :=
  hcd ▸ h

theorem eq (h : Becomes c r r') (hc : c = false) : r = r' :=
  h.cast hc

theorem exists_error (h : Becomes c r r') (hc : c = true) : ∃ s, r = .error .callPlace s :=
  h.cast hc

/-- One part of the reading after the other. -/
theorem trans (h : Becomes c r r') (h' : c = false → Becomes d r' r'') : Becomes (c || d) r r'' := by
  cases c with
  | false => exact h.eq rfl ▸ h' rfl
  | true => exact h

/-- A sequence of two readers. -/
theorem bind {x : Parse α} {f : α → Parse β} {s s₁ : ParseState} {a : α}
    {q : EStateM.Result Fault ParseState β} (h : Becomes c (x s) (.ok a s₁))
    (hf : c = false → Becomes d (f a s₁) q) : Becomes (c || d) ((x >>= f) s) q := by
  cases c with
  | false =>
    rw [EStateM.bind_of_ok (h.eq rfl)]
    exact hf rfl
  | true =>
    obtain ⟨s', hs'⟩ := h.exists_error rfl
    exact ⟨s', EStateM.bind_of_error hs'⟩

/-- The same reader behind both. -/
theorem before {x y : Parse α} {s s₁ : ParseState} (h : Becomes c (x s) (y s₁)) (f : α → Parse β) :
    Becomes c ((x >>= f) s) ((y >>= f) s₁) := by
  cases c with
  | false =>
    refine of_eq ?_
    simp only [Bind.bind, EStateM.bind, h.eq rfl]
  | true =>
    obtain ⟨s', hs'⟩ := h.exists_error rfl
    exact ⟨s', EStateM.bind_of_error hs'⟩

/-- A reader, and something behind it that always ends in the same way. -/
theorem next {x : Parse α} {f : α → Parse β} {s s₁ : ParseState} {a : α}
    {q : EStateM.Result Fault ParseState β} (h : Becomes c (x s) (.ok a s₁)) (hf : f a s₁ = q) :
    Becomes c ((x >>= f) s) q :=
  (h.bind fun _ => of_eq hf).cast (Bool.or_false c)

end Becomes

/-- A node that is asked for its place has one, or it is a call. -/
theorem becomes_of_pos {e e' : Node} (he : e.isCall = false → e.pos?.isSome) (s : ParseState) :
    Becomes e.isCall (ofExcept (e.pos.map fun _ => e') s) (.ok e' s) := by
  cases hcall : e.isCall with
  | false =>
    obtain ⟨p, hp⟩ := Option.isSome_iff_exists.mp (he hcall)
    refine Becomes.of_eq ?_
    rw [Node.pos, hp]
    rfl
  | true =>
    cases e with
    | call => exact ⟨s, rfl⟩
    | _ => cases hcall

/-! ## What is read -/

/-- A budget that is enough to read a segment as an expression of a level. -/
def expressionBudget (l : Level) (seg : List Token) : Nat :=
  12 * seg.length + (9 - l.rank)

/-- Before the token `t`, reading an expression of level `l` has come over the segment `seg` to the
further operators of its level, with the node `e` on their left. -/
def Opens (l : Level) (before : Pos) (seg : List Token) (e : Node) (t : Token) : Prop :=
  ∀ ⦃done rest : List Token⦄ (σ : Scopes) (rs : List Diagnostic) ⦃n : Nat⦄,
    placeBefore done (seg ++ t :: rest) = before → expressionBudget l seg ≤ n →
    ∃ m, 0 < m ∧ n ≤ m + seg.length ∧
      Becomes e.exposesCall (expression n l (between done (seg ++ t :: rest) σ rs))
        (chain m l e (between (done ++ seg) (t :: rest) σ rs))

/-- Before the token `t`, the segment `seg` is read as the expression `e` of level `l`. -/
def Completes (l : Level) (before : Pos) (seg : List Token) (e : Node) (t : Token) : Prop :=
  ∀ ⦃done rest : List Token⦄ (σ : Scopes) (rs : List Diagnostic) ⦃n : Nat⦄,
    placeBefore done (seg ++ t :: rest) = before → expressionBudget l seg ≤ n →
    Becomes e.exposesCall (expression n l (between done (seg ++ t :: rest) σ rs))
      (.ok e (between (done ++ seg) (t :: rest) σ rs))

/-- Before the closing parenthesis `r`, the segment `seg` is read as the arguments `es`, and the
parenthesis with it. -/
def CompletesArguments (before : Pos) (seg : List Token) (es : List Node) (r : Token) : Prop :=
  ∀ ⦃done rest : List Token⦄ (σ : Scopes) (rs : List Diagnostic) ⦃n : Nat⦄,
    placeBefore done (seg ++ r :: rest) = before → 12 * seg.length + 10 ≤ n →
    Becomes (Node.exposesCallAny es) (arguments n (between done (seg ++ r :: rest) σ rs))
      (.ok (some es) (between (done ++ seg ++ [r]) rest σ rs))

variable {l : Level} {before : Pos} {seg seg' : List Token} {a b e : Node} {t u : Token}

/-! ## Chains of operators -/

/-- Where no operator of the level comes, a chain ends. -/
theorem chain_of_not_mem {done rest : List Token} {σ : Scopes} {rs : List Diagnostic} {m : Nat}
    (ht : t.kind ∉ l.operators) :
    chain (m + 1) l e (between done (t :: rest) σ rs) =
      .ok e (between done (t :: rest) σ rs) := by
  rw [chain, accept_then, if_neg (fun hk => ht hk.2)]
  rfl

theorem Opens.completes (h : Opens l before seg e t) (ht : ¬ t.kind.extendsLevel l) :
    Completes l before seg e t := by
  intro done rest σ rs n hb hn
  obtain ⟨m, hm, -, he⟩ := h σ rs hb hn
  obtain ⟨m, rfl⟩ := Nat.exists_eq_succ_of_ne_zero (Nat.ne_of_gt hm)
  rwa [chain_of_not_mem (TokenKind.not_mem_operators ht)] at he

/-- A level without operators has no chain, so what is read there is all. -/
theorem Completes.opens (hl : l.operators = []) (hpos : 0 < seg.length)
    (h : Completes l before seg e t) : Opens l before seg e t := by
  intro done rest σ rs n hb hn
  have hn' : 0 < n := by
    have : 12 * seg.length ≤ n := Nat.le_trans (Nat.le_add_right _ _) hn
    omega
  refine ⟨n, hn', Nat.le_add_right _ _, ?_⟩
  obtain ⟨m, rfl⟩ := Nat.exists_eq_succ_of_ne_zero (Nat.ne_of_gt hn')
  rw [chain_of_not_mem (by rw [hl]; exact List.not_mem_nil)]
  exact h σ rs hb hn

theorem budget_lift (hl : l ≠ .primitive) {n : Nat} (hn : expressionBudget l seg ≤ n + 1) :
    expressionBudget l.next seg ≤ n := by
  have hr := Level.rank_next hl
  have hle := l.next.rank_le_nine
  simp only [expressionBudget] at hn ⊢
  omega

/-- Going down to the next level. -/
theorem Completes.lift (hl : l ≠ .primitive) (hpos : 0 < seg.length)
    (hhead : ∃ u us, seg = u :: us ∧ Derives.Begins l.next u.kind)
    (h : Completes l.next before seg e t) : Opens l before seg e t := by
  intro done rest σ rs n hb hn
  have hn' : 12 * seg.length ≤ n := Nat.le_trans (Nat.le_add_right _ _) hn
  obtain ⟨n, rfl⟩ := Nat.exists_eq_succ_of_ne_zero (show n ≠ 0 by omega)
  refine ⟨n, by omega, by omega, ?_⟩
  have hnext := h σ rs hb (budget_lift hl hn)
  obtain ⟨u, us, rfl, hbegins⟩ := hhead
  -- `not` and the sign have no operators, so the chain behind them is empty
  have hlast : ∀ e' : Node, l.operators = [] →
      chain n l e' (between (done ++ u :: us) (t :: rest) σ rs) =
        .ok e' (between (done ++ u :: us) (t :: rest) σ rs) := by
    intro e' hnil
    obtain ⟨m, rfl⟩ := Nat.exists_eq_succ_of_ne_zero (show n ≠ 0 by
      simp only [List.length_cons] at hn'
      omega)
    exact chain_of_not_mem (by rw [hnil]; exact List.not_mem_nil)
  -- what begins on a stronger level begins neither with `not` nor with the sign
  have hhead : ∀ k, ¬ Derives.Begins l.next k → u.kind ≠ k := fun k hk heq => hk (heq ▸ hbegins)
  cases l with
  | primitive => exact absurd rfl hl
  | negation =>
    rw [expression, List.cons_append, accept_one_then (by decide),
      if_neg (hhead .notWord (by decide)), hlast e rfl]
    exact hnext
  | sign =>
    rw [expression, List.cons_append, accept_one_then (by decide),
      if_neg (hhead .minus (by decide)), hlast e rfl]
    exact hnext
  | disjunction | conjunction | equality | comparison | sum | product | power =>
    exact hnext.next rfl

/-- One operator more. -/
theorem Opens.join {op : Operator} (h : Opens op.level before seg a t) (hk : t.kind = op.kind)
    (ha : a.exposesCall = false → a.isCall = false → a.pos?.isSome)
    (hright : Completes op.level.rightSide t.pos seg' b u) :
    Opens op.level before (seg ++ t :: seg') (op.level.joined t.text a b) u := by
  intro done rest σ rs n hb hn
  have hassoc : seg ++ t :: seg' ++ u :: rest = seg ++ t :: (seg' ++ u :: rest) := by simp
  rw [hassoc] at hb ⊢
  simp only [expressionBudget, List.length_append, List.length_cons] at hn
  have hleft : expressionBudget op.level seg ≤ n := by
    simp only [expressionBudget]
    omega
  -- the left side leaves enough of the budget for the operator and the right side
  obtain ⟨m, hm, hnm, he⟩ := h σ rs hb hleft
  obtain ⟨m, rfl⟩ := Nat.exists_eq_succ_of_ne_zero (Nat.ne_of_gt hm)
  have hmem : t.kind ≠ .endOfFile ∧ t.kind ∈ op.level.operators := by
    rw [hk]
    exact ⟨op.kind_ne_endOfFile, op.kind_mem_operators⟩
  have hb' : expressionBudget op.level.rightSide seg' ≤ m := by
    simp only [expressionBudget]
    omega
  refine ⟨m, by omega, by simp only [List.length_append, List.length_cons]; omega, ?_⟩
  -- the left side is asked for its place when the right side has been read
  have hexposed : (a.exposesCall || (b.exposesCall || a.isCall)) =
      (op.level.joined t.text a b).exposesCall := by
    rw [Level.exposesCall_joined, ← Bool.or_assoc, Bool.or_comm, ← Bool.or_assoc]
  refine Becomes.cast (he.trans fun hexp => ?_) hexposed
  rw [chain, accept_then, if_pos hmem, EStateM.bind_of_ok textAt_one_back]
  refine (hright σ rs (placeBefore_concat _ _ _) hb').bind fun _ => ?_
  rw [Level.join_eq]
  refine (becomes_of_pos (ha hexp) _).next ?_
  simp only [List.append_assoc, List.singleton_append]

/-! ## Signs and negations -/

theorem Completes.sign (hk : t.kind = .minus)
    (he : e.exposesCall = false → e.isCall = false → e.pos?.isSome)
    (h : Completes .sign t.pos seg e u) :
    Completes .sign before (t :: seg) (.signed (Sign.ofSymbol t.text) e) u := by
  intro done rest σ rs n hb hn
  simp only [expressionBudget, List.length_cons] at hn
  obtain ⟨n, rfl⟩ := Nat.exists_eq_succ_of_ne_zero (show n ≠ 0 by omega)
  have hbudget : expressionBudget .sign seg ≤ n := by
    simp only [expressionBudget]
    omega
  rw [expression, List.cons_append, accept_one_then (by decide), if_pos hk,
    EStateM.bind_of_ok textAt_one_back, Node.exposesCall, Bool.or_comm]
  refine (h σ rs (placeBefore_concat _ _ _) hbudget).bind fun hexp => ?_
  rw [List.append_assoc, List.singleton_append]
  exact becomes_of_pos (he hexp) _

theorem Completes.negation (hk : t.kind = .notWord)
    (he : e.exposesCall = false → e.isCall = false → e.pos?.isSome)
    (h : Completes .negation t.pos seg e u) :
    Completes .negation before (t :: seg) (.negation e) u := by
  intro done rest σ rs n hb hn
  simp only [expressionBudget, List.length_cons] at hn
  obtain ⟨n, rfl⟩ := Nat.exists_eq_succ_of_ne_zero (show n ≠ 0 by omega)
  have hbudget : expressionBudget .negation seg ≤ n := by
    simp only [expressionBudget]
    omega
  rw [expression, List.cons_append, accept_one_then (by decide), if_pos hk, Node.exposesCall,
    Bool.or_comm]
  refine (h σ rs (placeBefore_concat _ _ _) hbudget).bind fun hexp => ?_
  rw [List.append_assoc, List.singleton_append]
  exact becomes_of_pos (he hexp) _

/-! ## Parts without operators -/

/-- What the reader of parts without operators reads with a budget of two less. -/
theorem completes_of_primitive (hpos : 0 < seg.length)
    (h : ∀ ⦃done rest : List Token⦄ (σ : Scopes) (rs : List Diagnostic) ⦃n : Nat⦄,
      placeBefore done (seg ++ u :: rest) = before → 12 * seg.length ≤ n + 2 →
      Becomes e.exposesCall (primitive (n + 1) (between done (seg ++ u :: rest) σ rs))
        (.ok e (between (done ++ seg) (u :: rest) σ rs))) :
    Completes .primitive before seg e u := by
  intro done rest σ rs n hb hn
  have hn' : 12 * seg.length ≤ n := Nat.le_trans (Nat.le_add_right _ _) hn
  obtain ⟨n, rfl⟩ : ∃ k, n = k + 2 := ⟨n - 2, by omega⟩
  rw [expression]
  exact h σ rs hb hn'

/-- A part without operators that is a single token, and no call. -/
theorem completes_of_token (he : e.exposesCall = false)
    (h : ∀ ⦃done rest : List Token⦄ (σ : Scopes) (rs : List Diagnostic) (n : Nat),
      placeBefore done (t :: u :: rest) = before →
      primitive (n + 1) (between done (t :: u :: rest) σ rs) =
        .ok e (between (done ++ [t]) (u :: rest) σ rs)) :
    Completes .primitive before [t] e u := by
  refine completes_of_primitive (by simp) ?_
  intro done rest σ rs n hb _
  exact (Becomes.of_eq (h σ rs n hb)).cast he.symm

theorem completes_number (hk : t.kind = .number) :
    Completes .primitive before [t] (numberNode t) u := by
  refine completes_of_token ?_ ?_
  · unfold numberNode
    split <;> simp only [Node.exposesCall]
  · intro done rest σ rs n hb
    rw [primitive_between, if_pos hk]

theorem completes_text (hk : t.kind = .text) :
    Completes .primitive before [t] (.literal .string t.content.value t.pos) u := by
  refine completes_of_token (by simp only [Node.exposesCall]) ?_
  intro done rest σ rs n hb
  simp only [primitive_between, hk, reduceCtorEq, if_false, if_true]

theorem completes_truth (hk : t.kind = .trueWord) :
    Completes .primitive before [t] (.literal .bool (.bool true) t.pos) u := by
  refine completes_of_token (by simp only [Node.exposesCall]) ?_
  intro done rest σ rs n hb
  simp only [primitive_between, hk, reduceCtorEq, if_false, if_true]

theorem completes_falsehood (hk : t.kind = .falseWord) :
    Completes .primitive before [t] (.literal .bool (.bool false) t.pos) u := by
  refine completes_of_token (by simp only [Node.exposesCall]) ?_
  intro done rest σ rs n hb
  simp only [primitive_between, hk, reduceCtorEq, if_false, if_true]

theorem completes_nothing (hk : t.kind = .noneWord) :
    Completes .primitive before [t] (.empty before) u := by
  refine completes_of_token (by simp only [Node.exposesCall]) ?_
  intro done rest σ rs n hb
  simp only [primitive_between, hk, reduceCtorEq, if_false, if_true, hb]

theorem completes_name (hk : t.kind = .identifier) (hu : u.kind ≠ .leftParen) :
    Completes .primitive before [t] (.identifier t.text t.pos) u := by
  refine completes_of_token (by simp only [Node.exposesCall]) ?_
  intro done rest σ rs n hb
  simp only [primitive_between, hk, reduceCtorEq, if_false, if_true]
  rw [accept_one_then (by decide), if_neg hu, EStateM.bind_of_ok previous_between]
  rfl

theorem completes_group {r : Token} (hk : t.kind = .leftParen) (hr : r.kind = .rightParen)
    (h : Completes .disjunction t.pos seg e r) :
    Completes .primitive before (t :: (seg ++ [r])) e u := by
  refine completes_of_primitive (by simp) ?_
  intro done rest σ rs n hb hn
  have hassoc : t :: (seg ++ [r]) ++ u :: rest = t :: (seg ++ r :: u :: rest) := by simp
  have hbudget : expressionBudget .disjunction seg ≤ n := by
    simp only [List.length_cons, List.length_append, List.length_nil] at hn
    simp only [expressionBudget, Level.rank]
    omega
  have hexpect : expect .rightParen .openParenthesis
      (between (done ++ [t] ++ seg) (r :: u :: rest) σ rs) =
        .ok true (between (done ++ [t] ++ seg ++ [r]) (u :: rest) σ rs) := by
    rw [expect_between _ (by decide), if_pos hr]
  rw [hassoc]
  simp only [primitive_between, hk, reduceCtorEq, if_false, if_true]
  refine (h σ rs (placeBefore_concat _ _ _) hbudget).next ?_
  rw [EStateM.bind_of_ok hexpect]
  simp only [if_true, EStateM.pure_apply, List.append_assoc, List.cons_append, List.nil_append]

/-- The rest of a call, behind its opening parenthesis. -/
theorem call_of_completesArguments {l r : Token} {es : List Node} {n : Nat}
    (done rest : List Token) (σ : Scopes) (rs : List Diagnostic)
    (h : CompletesArguments l.pos seg es r) (hn : 12 * seg.length + 11 ≤ n) :
    Becomes (Node.exposesCallAny es)
      (Parse.call n (between (done ++ [t] ++ [l]) (seg ++ r :: rest) σ rs))
      (.ok (.call t.text es) (between (done ++ t :: l :: (seg ++ [r])) rest σ rs)) := by
  obtain ⟨n, rfl⟩ := Nat.exists_eq_succ_of_ne_zero (show n ≠ 0 by omega)
  rw [call, EStateM.bind_of_ok textAt_two_back]
  refine (h σ rs (placeBefore_concat _ _ _) (by omega)).next ?_
  simp only [EStateM.pure_apply, List.append_assoc, List.singleton_append]
  rfl

theorem completes_call {l r : Token} {es : List Node} (hk : t.kind = .identifier)
    (hl : l.kind = .leftParen) (h : CompletesArguments l.pos seg es r) :
    Completes .primitive before (t :: l :: (seg ++ [r])) (.call t.text es) u := by
  refine completes_of_primitive (by simp) ?_
  intro done rest σ rs n hb hn
  have hassoc : t :: l :: (seg ++ [r]) ++ u :: rest = t :: l :: (seg ++ r :: u :: rest) := by simp
  simp only [List.length_cons, List.length_append, List.length_nil] at hn
  rw [hassoc]
  simp only [primitive_between, hk, reduceCtorEq, if_false, if_true]
  rw [accept_one_then (by decide), if_pos hl, Node.exposesCall]
  exact call_of_completesArguments done (u :: rest) σ rs h (by omega)

/-! ## Arguments -/

theorem completesArguments_last {r : Token} (hr : r.kind = .rightParen)
    (h : Completes .disjunction before seg e r) : CompletesArguments before seg [e] r := by
  intro done rest σ rs n hb hn
  obtain ⟨n, rfl⟩ := Nat.exists_eq_succ_of_ne_zero (show n ≠ 0 by omega)
  have hbudget : expressionBudget .disjunction seg ≤ n := by
    simp only [expressionBudget, Level.rank]
    omega
  simp only [Node.exposesCallAny, Bool.or_false]
  rw [arguments]
  refine (h σ rs hb hbudget).next ?_
  rw [accept_one_then (by decide), if_neg (by rw [hr]; decide), accept_one_then (by decide),
    if_pos hr]
  rfl

theorem completesArguments_more {c r : Token} {es : List Node} (hc : c.kind = .comma)
    (first : Completes .disjunction before seg e c)
    (rest : CompletesArguments c.pos seg' es r) :
    CompletesArguments before (seg ++ c :: seg') (e :: es) r := by
  intro done rest' σ rs n hb hn
  have hassoc : seg ++ c :: seg' ++ r :: rest' = seg ++ c :: (seg' ++ r :: rest') := by simp
  rw [hassoc] at hb ⊢
  simp only [List.length_append, List.length_cons] at hn
  obtain ⟨n, rfl⟩ := Nat.exists_eq_succ_of_ne_zero (show n ≠ 0 by omega)
  have hbudget : expressionBudget .disjunction seg ≤ n := by
    simp only [expressionBudget, Level.rank]
    omega
  rw [arguments, Node.exposesCallAny]
  refine (first σ rs hb hbudget).bind fun _ => ?_
  rw [accept_one_then (by decide), if_pos hc]
  refine (rest σ rs (placeBefore_concat _ _ _) (by omega)).next ?_
  simp only [EStateM.pure_apply, Option.map_some, List.append_assoc, List.cons_append,
    List.nil_append]

/-! ## All derivations -/

theorem Level.rank_le_rightSide (l : Level) : l.rank ≤ l.rightSide.rank := by
  cases l <;> decide

theorem Level.rightSide_rank_le_next (l : Level) : l.rightSide.rank ≤ l.next.rank := by
  cases l <;> decide

/-- A level without operators is gone on with by stronger operators only. -/
theorem TokenKind.extendsLevel_rightSide {k : TokenKind} (hl : l.operators = [])
    (h : k.extendsLevel l) : k.extendsLevel l.rightSide := by
  rcases h with hp | ⟨op, hr, hk⟩
  · exact .inl hp
  · refine .inr ⟨op, ?_, hk⟩
    revert hl hr
    cases l <;> cases op <;> decide

theorem TokenKind.not_extendsLevel_comma (l : Level) : ¬ TokenKind.comma.extendsLevel l :=
  not_extendsLevel (by decide) (by rintro ⟨⟩ <;> decide) l

theorem TokenKind.not_extendsLevel_rightParen (l : Level) :
    ¬ TokenKind.rightParen.extendsLevel l :=
  not_extendsLevel (by decide) (by rintro ⟨⟩ <;> decide) l

/-- What is read of a segment that makes a phrase. -/
def Phrase.IsRead (before : Pos) (seg : List Token) : Phrase → Prop
  | .expression l e =>
    ∀ t : Token, ¬ t.kind.extendsLevel l.rightSide → Opens l before seg e t
  | .arguments es =>
    ∀ r : Token, r.kind = .rightParen → CompletesArguments before seg es r

/-- An expression is read to its end, if what follows does not go on with it. -/
theorem Phrase.IsRead.completes (h : Phrase.IsRead before seg (.expression l e))
    (ht : ¬ t.kind.extendsLevel l) : Completes l before seg e t := by
  have hopens : Opens l before seg e t :=
    h t fun hx => ht (TokenKind.extendsLevel_mono l.rank_le_rightSide hx)
  exact hopens.completes ht

/-- In front of an operator, reading has come over its left side to it. -/
theorem Spans.opens_leftSide {op : Operator}
    (h : Spans before seg (.expression op.level.leftSide a)) (hk : t.kind = op.kind)
    (ih : Phrase.IsRead before seg (.expression op.level.leftSide a)) :
    Opens op.level before seg a t := by
  by_cases hop : op = .pow
  · -- the left side of a power is of a stronger level, which is gone on from
    subst hop
    have ht : ¬ t.kind.extendsLevel .primitive := by
      rw [hk]
      exact Operator.not_extendsLevel (by decide)
    obtain ⟨u, us, hseg, hb⟩ := h.exists_head
    exact (ih.completes ht).lift (by decide) h.length_pos ⟨u, us, hseg, hb⟩
  · have hside : op.level.leftSide = op.level := by
      revert hop
      cases op <;> decide
    rw [hside] at ih
    refine ih t ?_
    rw [hk]
    refine Operator.not_extendsLevel ?_
    revert hop
    cases op <;> decide

/-- **Whatever makes a phrase is read**, by induction on the derivation. -/
theorem Spans.isRead {p : Phrase} (h : Spans before seg p) : Phrase.IsRead before seg p := by
  induction h with
  | number hk => exact fun u _ => (completes_number hk).opens rfl (by simp)
  | text hk => exact fun u _ => (completes_text hk).opens rfl (by simp)
  | truth hk => exact fun u _ => (completes_truth hk).opens rfl (by simp)
  | falsehood hk => exact fun u _ => (completes_falsehood hk).opens rfl (by simp)
  | nothing hk => exact fun u _ => (completes_nothing hk).opens rfl (by simp)
  | name hk => exact fun u hu => (completes_name hk fun hp => hu (.inl hp)).opens rfl (by simp)
  | call hk hl hr args ih => exact fun u _ => (completes_call hk hl (ih _ hr)).opens rfl (by simp)
  | group hl hr inner ih =>
    intro u _
    have hinner := ih.completes (hr ▸ TokenKind.not_extendsLevel_rightParen _)
    exact (completes_group hl hr hinner).opens rfl (by simp)
  | sign hk operand ih =>
    intro u hu
    have hoperand := ih.completes (mt (TokenKind.extendsLevel_rightSide rfl) hu)
    exact (hoperand.sign hk (operand.pos?_isSome _ _ rfl)).opens rfl (by simp)
  | negation hk operand ih =>
    intro u hu
    have hoperand := ih.completes (mt (TokenKind.extendsLevel_rightSide rfl) hu)
    exact (hoperand.negation hk (operand.pos?_isSome _ _ rfl)).opens rfl (by simp)
  | join op left hk right ihl ihr =>
    intro u hu
    -- what follows may go on with the left side, as this operator does, but not with the right one
    have hright := ihr.completes hu
    exact (left.opens_leftSide hk ihl).join hk (left.pos?_isSome _ _ rfl) hright
  | lift hl h ih =>
    intro u hu
    have hnext := ih.completes (mt (TokenKind.extendsLevel_mono (Level.rightSide_rank_le_next _)) hu)
    exact hnext.lift hl h.length_pos h.exists_head
  | last h ih =>
    intro r hr
    exact completesArguments_last hr (ih.completes (hr ▸ TokenKind.not_extendsLevel_rightParen _))
  | more first hc rest ihf ihr =>
    intro r hr
    have hfirst := ihf.completes (hc ▸ TokenKind.not_extendsLevel_comma _)
    exact completesArguments_more hc hfirst (ihr r hr)

end Scriptlet
