import Scriptlet.Proofs.ExpressionSoundness
import Scriptlet.Proofs.StatementCompleteness

/-! # Statements that are read are those that the grammar composes

Whatever tokens come, a reader of statements that returns without a report has read a segment that the
grammar composes into what it returns (`exists_composes_of_parseProgram`). Together with the other
direction (`Composes.parseProgram_eq`), what is said of programs that are read without a report can be
proved along their derivations.

Reading ends at the first token that marks the end. What stands behind it is not looked at.
-/
namespace Scriptlet

open ParseState

/-! ## What each reader promises -/

/-- What a reader of statements that returns `a` has read: a segment that `P` accepts, unless it
reported something. `P` is told the place before the segment, the scopes before it, the segment, the
scopes behind it and the tokens behind it. -/
def Builds {α : Type} (x : Parse α)
    (P : Pos → Scopes → List Token → Scopes → List Token → α → Prop) : Prop :=
  ∀ ⦃done rest : List Token⦄ ⦃σ : Scopes⦄ ⦃rs : List Diagnostic⦄ ⦃a : α⦄ ⦃s : ParseState⦄,
    x (between done rest σ rs) = .ok a s →
    ∃ seg rest' new σ', Reached done rest rs seg rest' new σ' s ∧
      (new = [] → P (placeBefore done rest) σ seg σ' rest' a)

/-- A reader behind the token `t`: together with that token, the segment is as `P` says. -/
def BuildsBehind {α : Type} (t : Token) (x : Parse α)
    (P : Scopes → List Token → Scopes → List Token → α → Prop) : Prop :=
  ∀ ⦃done rest : List Token⦄ ⦃σ : Scopes⦄ ⦃rs : List Diagnostic⦄ ⦃a : α⦄ ⦃s : ParseState⦄,
    x (between (done ++ [t]) rest σ rs) = .ok a s →
    ∃ seg rest' new σ', Reached done (t :: rest) rs (t :: seg) rest' new σ' s ∧
      (new = [] → P σ (t :: seg) σ' rest' a)

/-- A semicolon comes first. -/
def SemicolonFirst (ts : List Token) : Prop :=
  ∃ t rest, ts = t :: rest ∧ t.kind = .semicolon

/-- A semicolon that comes before another kind of token comes before all else. -/
theorem SemicolonFirst.of_append {seg rest : List Token} {u : Token} (hu : u.kind ≠ .semicolon)
    (h : SemicolonFirst (seg ++ u :: rest)) : SemicolonFirst seg := by
  obtain ⟨t, ts, heq, ht⟩ := h
  cases seg with
  | nil =>
    cases heq
    exact absurd ht hu
  | cons v vs =>
    cases heq
    exact ⟨_, _, rfl, ht⟩

/-- A statement has been read, and the semicolon that it may need comes next. -/
def ReadsStatement (scope : ScopeId) (σ : Scopes) (seg : List Token) (σ' : Scopes)
    (rest : List Token) (ns : List Node) : Prop :=
  ∃ isBare, Composes scope σ seg σ' (.statement isBare ns) ∧ (isBare = true → SemicolonFirst rest)

/-- A statement of one node has been read. -/
def ReadsSingle (scope : ScopeId) (σ : Scopes) (seg : List Token) (σ' : Scopes) (_ : List Token)
    (e : Node) : Prop :=
  Composes scope σ seg σ' (.statement false [e])

theorem ReadsSingle.readsStatement {scope : ScopeId} {σ σ' : Scopes} {seg rest : List Token}
    {e : Node} (h : ReadsSingle scope σ seg σ' rest e) :
    ReadsStatement scope σ seg σ' rest [e] :=
  ⟨false, h, fun hfalse => nomatch hfalse⟩

/-- The statements of a block and its closing brace have been read. -/
def ReadsBody (scope : ScopeId) (_ : Pos) (σ : Scopes) (seg : List Token) (σ' : Scopes)
    (_ : List Token) (body : Option (List Node)) : Prop :=
  ∃ ss seg' r, body = some ss ∧ seg = seg' ++ [r] ∧ r.kind = .rightBrace ∧
    Composes scope σ seg' σ' (.body ss)

namespace Parse

variable {n : Nat}

open SoundWithin (follows_mistake pos_eq_ok_of_map)

/-! ## Declarations -/

/-- A variable with its value has been read, or one without, before a semicolon or a comma. -/
def ReadsDeclarator (type : String) (isMutable : Bool) (before : Pos) (seg rest : List Token)
    (d : Node) : Prop :=
  (∃ t a seg' e, seg = t :: a :: seg' ∧ t.kind = .identifier ∧ a.kind = .assign ∧
    Spans a.pos seg' (.expression .disjunction e) ∧ d = .declaration t.text type isMutable e) ∨
  ∃ t u us, seg = [t] ∧ t.kind = .identifier ∧ rest = u :: us ∧
    (u.kind = .semicolon ∨ u.kind = .comma) ∧
    d = .declaration t.text type isMutable (.empty before)

theorem follows_declarator (type : String) (isMutable : Bool) :
    Follows (declarator n type isMutable) (ReadsDeclarator type isMutable) := by
  intro done rest σ rs d s h
  obtain ⟨t, ts, rfl⟩ :=
    (needsToken_place fun _ => (needsToken_expect _ _).bind).exists_cons h
  by_cases ht : t.kind = .identifier
  · obtain ⟨u, us, rfl⟩ : ∃ u us, ts = u :: us := by
      rw [declarator, EStateM.bind_of_ok (place_between (List.cons_ne_nil _ _)),
        expect_then (by decide), if_pos ht, EStateM.bind_of_ok textAt_one_back] at h
      exact (needsToken_accept _ _).bind.exists_cons h
    rw [declarator_between n type isMutable ht] at h
    split at h
    · rename_i ha
      obtain ⟨value, s₁, hvalue, h⟩ := EStateM.bind_eq_ok.mp h
      obtain ⟨hmk, rfl⟩ := ofExcept_eq_ok h
      obtain ⟨p, -, rfl⟩ := pos_eq_ok_of_map hmk
      obtain ⟨seg, rest', new, hreach, hd⟩ := (SoundWithin.all n).expression .disjunction hvalue
      refine ⟨t :: u :: seg, rest', new, hreach.cons.cons, fun hnew => .inl ?_⟩
      have hspans := (hd hnew).1
      rw [placeBefore_concat] at hspans
      exact ⟨t, u, seg, value, rfl, ht, ha, hspans, rfl⟩
    split at h
    · rename_i hu
      cases h
      exact ⟨[t], u :: us, [], Reached.single, fun _ => .inr ⟨t, u, us, rfl, ht, rfl, hu, rfl⟩⟩
    · obtain ⟨-, seg, rest', new, hreach, hne⟩ := follows_mistake h
      exact ⟨t :: seg, rest', new, hreach.cons, fun hnew => absurd hnew hne⟩
  · -- the missing name has been reported
    rw [declarator, EStateM.bind_of_ok (place_between (List.cons_ne_nil _ _)),
      expect_then (by decide), if_neg ht] at h
    obtain ⟨-, seg, rest', new, hreach, hne⟩ := follows_mistake h
    exact ⟨seg, rest', new, hreach, fun hnew => absurd hnew hne⟩

/-- The variables of a declaration have been read, up to a semicolon if the last one is bare. -/
def ReadsDeclarators (type : String) (isMutable : Bool) (before : Pos) (seg rest : List Token)
    (ds : List Node) : Prop :=
  ∃ isBare, Introduces type isMutable before seg isBare ds ∧ (isBare = true → SemicolonFirst rest)

/-- One variable more, and a comma before the others. -/
theorem ReadsDeclarator.more {type : String} {isMutable : Bool} {before : Pos}
    {seg seg' rest rest' : List Token} {c : Token} {d : Node} {ds : List Node}
    (h : ReadsDeclarator type isMutable before seg rest d) (hc : c.kind = .comma)
    (hmore : ReadsDeclarators type isMutable c.pos seg' rest' ds) :
    ReadsDeclarators type isMutable before (seg ++ c :: seg') rest' (d :: ds) := by
  obtain ⟨isBare, hintroduces, hbare⟩ := hmore
  rcases h with ⟨t, a, seg, e, rfl, ht, ha, hspans, rfl⟩ | ⟨t, u, us, rfl, ht, -, -, rfl⟩
  · exact ⟨isBare, .initialisedMore ht ha hspans hc hintroduces, hbare⟩
  · exact ⟨isBare, .bareMore ht hc hintroduces, hbare⟩

/-- One variable, with no comma behind it. -/
theorem ReadsDeclarator.last {type : String} {isMutable : Bool} {before : Pos}
    {seg rest : List Token} {d : Node} (h : ReadsDeclarator type isMutable before seg rest d)
    (hrest : ∀ u ∈ rest.head?, u.kind ≠ .comma) :
    ReadsDeclarators type isMutable before seg rest [d] := by
  rcases h with ⟨t, a, seg, e, rfl, ht, ha, hspans, rfl⟩ | ⟨t, u, us, rfl, ht, rfl, hu, rfl⟩
  · exact ⟨false, .initialised ht ha hspans, fun hfalse => nomatch hfalse⟩
  · exact ⟨true, .bare ht, fun _ => ⟨u, us, rfl, hu.resolve_right (hrest u rfl)⟩⟩

theorem follows_declarators (type : String) (isMutable : Bool) (n : Nat) :
    Follows (declarators n type isMutable) (ReadsDeclarators type isMutable) := by
  induction n with
  | zero => exact SoundWithin.follows_throw
  | succ n ih =>
    intro done rest σ rs ds s h
    obtain ⟨first, s₁, hfirst, h⟩ := EStateM.bind_eq_ok.mp h
    obtain ⟨seg, rest', new, hreach, hd⟩ := follows_declarator type isMutable hfirst
    rw [hreach.state] at h
    obtain ⟨u, us, rfl⟩ := (needsToken_accept _ _).bind.exists_cons h
    rw [accept_one_then (by decide)] at h
    split at h
    · rename_i hu
      obtain ⟨more, s₂, hmore, h⟩ := EStateM.bind_eq_ok.mp h
      obtain ⟨rfl, rfl⟩ := EStateM.pure_eq_ok.mp h
      obtain ⟨seg', rest'', new', hreach', hd'⟩ := ih hmore
      rw [List.append_assoc] at hreach'
      refine ⟨seg ++ [u] ++ seg', rest'', new ++ new', hreach.concat.trans hreach', ?_⟩
      intro hnew
      obtain ⟨rfl, rfl⟩ := List.append_eq_nil_iff.mp hnew
      rw [placeBefore_concat] at hd'
      rw [List.append_assoc, List.singleton_append]
      exact (hd rfl).more hu (hd' rfl)
    · rename_i hu
      obtain ⟨rfl, rfl⟩ := EStateM.pure_eq_ok.mp h
      refine ⟨seg, u :: us, new, ⟨hreach.split, rfl⟩, fun hnew => (hd hnew).last ?_⟩
      intro v hv
      cases hv
      exact hu

/-- What is read behind `var` or `let`. -/
theorem builds_declaration {k : Token} (scope : ScopeId) (before : Pos)
    (hk : k.kind = .varWord ∨ k.kind = .letWord) :
    BuildsBehind k (declaration n before) (ReadsStatement scope) := by
  intro done rest σ rs ns s h
  obtain ⟨t, ts, rfl⟩ := (needsToken_accept _ _).bind.exists_cons h
  rw [declaration, accept_then] at h
  split at h
  · rename_i ht
    rw [EStateM.bind_of_ok look_two_back, EStateM.bind_of_ok textAt_one_back] at h
    obtain ⟨seg, rest', new, hreach, hd⟩ := follows_declarators t.text _ n h
    refine ⟨t :: seg, rest', new, σ, hreach.cons.cons, fun hnew => ?_⟩
    rw [placeBefore_concat] at hd
    obtain ⟨isBare, hintroduces, hbare⟩ := hd hnew
    exact ⟨isBare, .declaration hk ht.2 hintroduces, hbare⟩
  · obtain ⟨-, seg, rest', new, hreach, hne⟩ := follows_mistake h
    exact ⟨seg, rest', new, σ, hreach.cons, fun hnew => absurd hnew hne⟩

/-! ## Assignments and calls -/

/-- A compound assignment of the list comes and has been read, or none does. -/
theorem follows_compoundValue (name : String) {done rest : List Token} {σ : Scopes}
    {rs : List Diagnostic} {s : ParseState} {value : Option Node} :
    ∀ {ops : List (TokenKind × Arithmetic)}, (∀ entry ∈ ops, entry.1 ≠ .endOfFile) →
      compoundValue n name ops (between done rest σ rs) = .ok value s →
      (value = none ∧ s = between done rest σ rs) ∨
      ∃ a seg rest' new op e, Reached done rest rs (a :: seg) rest' new σ s ∧
        ops.lookup a.kind = some op ∧ value = some (.arithmetic op (.identifier name a.pos) e) ∧
        (new = [] → Spans a.pos seg (.expression .disjunction e))
  | [], _, h => by
    cases h
    exact .inl ⟨rfl, rfl⟩
  | (kind, op) :: ops, hne, h => by
    obtain ⟨a, ts, rfl⟩ := (needsToken_accept _ _).bind.exists_cons h
    rw [compoundValue, accept_one_then (hne _ List.mem_cons_self)] at h
    split at h
    · rename_i ha
      rw [EStateM.bind_of_ok place_concat] at h
      obtain ⟨right, s₁, hright, h⟩ := EStateM.bind_eq_ok.mp h
      obtain ⟨node, s₂, hnode, h⟩ := EStateM.bind_eq_ok.mp h
      obtain ⟨rfl, rfl⟩ := EStateM.pure_eq_ok.mp h
      obtain ⟨hmk, rfl⟩ := ofExcept_eq_ok hnode
      obtain ⟨p, -, rfl⟩ := pos_eq_ok_of_map hmk
      obtain ⟨seg, rest', new, hreach, hd⟩ := (SoundWithin.all n).expression .disjunction hright
      refine .inr ⟨a, seg, rest', new, op, right, hreach.cons, ?_, rfl, fun hnew => ?_⟩
      · simp only [ha, List.lookup_cons, BEq.rfl]
      · have hspans := (hd hnew).1
        rwa [placeBefore_concat] at hspans
    · rename_i ha
      rcases follows_compoundValue name (fun entry hm => hne entry (List.mem_cons_of_mem _ hm)) h
        with hnone | ⟨a', seg, rest', new, op', e, hreach, hop, hvalue⟩
      · exact .inl hnone
      · obtain ⟨rfl, -⟩ := List.cons.inj hreach.split
        refine .inr ⟨a, seg, rest', new, op', e, hreach, ?_, hvalue⟩
        rw [List.lookup_cons, beq_eq_false_iff_ne.mpr ha]
        exact hop

/-- What is read behind a name that is not called. -/
theorem builds_assignment (t : Token) (scope : ScopeId) (ht : t.kind = .identifier) :
    BuildsBehind t (assignment n) (ReadsSingle scope) := by
  intro done rest σ rs e s h
  rw [assignment, EStateM.bind_of_ok textAt_one_back, EStateM.bind_of_ok place_concat] at h
  obtain ⟨a, ts, rfl⟩ := (needsToken_accept _ _).bind.exists_cons h
  rw [accept_one_then (by decide)] at h
  split at h
  · rename_i ha
    obtain ⟨value, s₁, hvalue, h⟩ := EStateM.bind_eq_ok.mp h
    obtain ⟨hmk, rfl⟩ := ofExcept_eq_ok h
    obtain ⟨p, -, rfl⟩ := pos_eq_ok_of_map hmk
    obtain ⟨seg, rest', new, hreach, hd⟩ := (SoundWithin.all n).expression .disjunction hvalue
    refine ⟨a :: seg, rest', new, σ, hreach.cons.cons, fun hnew => ?_⟩
    have hspans := (hd hnew).1
    rw [placeBefore_concat] at hspans
    exact .assignment ht ha hspans
  · obtain ⟨value, s₁, hvalue, h⟩ := EStateM.bind_eq_ok.mp h
    rcases follows_compoundValue t.text (by decide) hvalue
      with ⟨rfl, rfl⟩ | ⟨a', seg, rest', new, op, e', hreach, hop, rfl, hspans⟩
    · obtain ⟨-, seg, rest', new, hreach, hne⟩ := follows_mistake h
      exact ⟨seg, rest', new, σ, hreach.cons, fun hnew => absurd hnew hne⟩
    · obtain ⟨hmk, rfl⟩ := ofExcept_eq_ok h
      obtain ⟨p, -, rfl⟩ := pos_eq_ok_of_map hmk
      exact ⟨a' :: seg, rest', new, σ, hreach.cons, fun hnew => .update ht hop (hspans hnew)⟩

/-- What is read behind a name: a call or an assignment. -/
theorem builds_named (t : Token) (scope : ScopeId) (ht : t.kind = .identifier) :
    BuildsBehind t
      (do if ← accept [.leftParen] then return [← call n] else return [← assignment n])
      (ReadsStatement scope) := by
  intro done rest σ rs ns s h
  obtain ⟨l, ts, rfl⟩ := (needsToken_accept _ _).bind.exists_cons h
  rw [accept_one_then (by decide)] at h
  split at h
  · rename_i hl
    obtain ⟨e, s₁, hcall, h⟩ := EStateM.bind_eq_ok.mp h
    obtain ⟨rfl, rfl⟩ := EStateM.pure_eq_ok.mp h
    obtain ⟨seg, rest', new, hreach, hd⟩ := (SoundWithin.all n).call hcall
    refine ⟨l :: seg, rest', new, σ, hreach.cons.cons, fun hnew => ?_⟩
    obtain ⟨args, seg', r, rfl, rfl, hr, hargs⟩ := hd hnew
    have hsingle : ReadsSingle scope σ (t :: l :: (seg' ++ [r])) σ rest' (.call t.text args) :=
      .call ht hl hr hargs
    exact hsingle.readsStatement
  · obtain ⟨e, s₁, hassign, h⟩ := EStateM.bind_eq_ok.mp h
    obtain ⟨rfl, rfl⟩ := EStateM.pure_eq_ok.mp h
    obtain ⟨seg, rest', new, σ', hreach, hd⟩ := builds_assignment t scope ht hassign
    exact ⟨seg, rest', new, σ', hreach, fun hnew => (hd hnew).readsStatement⟩

end Parse

/-! ## Statements with blocks -/

/-- The statement of soundness for a budget, for all readers of statements. -/
structure SoundStatements (n : Nat) : Prop where
  statement : ∀ scope, Builds (Parse.statement n scope) (fun _ => ReadsStatement scope)
  conditional : ∀ scope t, t.kind = .ifWord →
    BuildsBehind t (Parse.conditional n scope) (ReadsSingle scope)
  branches : ∀ scope, Builds (Parse.branches n scope)
    (fun before σ seg σ' _ bs => Composes scope σ seg σ' (.branches before bs))
  block : ∀ scope, Builds (Parse.block n scope)
    (fun _ σ seg σ' _ b => Composes scope σ seg σ' (.block b))
  blockBody : ∀ scope, Builds (Parse.blockBody n scope) (ReadsBody scope)

namespace SoundStatements

open Parse
open SoundWithin (follows_mistake)

variable {n : Nat}

/-- A condition and its block, and what is read behind the two. -/
theorem builds_conditionBlock (ih : SoundStatements n) {α : Type} {scope : ScopeId}
    {f : Node → Node → Parse α} {done rest : List Token} {σ : Scopes} {rs : List Diagnostic} {a : α}
    {s : ParseState}
    (h : (expression n .disjunction >>= fun c => Parse.block n scope >>= fun b => f c b)
      (between done rest σ rs) = .ok a s) :
    ∃ c b s₁ seg seg' rest' new σ', Reached done rest rs (seg ++ seg') rest' new σ' s₁ ∧
      f c b s₁ = .ok a s ∧
      (new = [] → Spans (placeBefore done rest) seg (.expression .disjunction c) ∧
        Composes scope σ seg' σ' (.block b)) := by
  obtain ⟨c, s₁, hc, h⟩ := EStateM.bind_eq_ok.mp h
  obtain ⟨b, s₂, hb, h⟩ := EStateM.bind_eq_ok.mp h
  obtain ⟨seg, rest', new, hreach, hd⟩ := (SoundWithin.all n).expression .disjunction hc
  rw [hreach.state] at hb
  obtain ⟨seg', rest'', new', σ', hreach', hd'⟩ := ih.block scope hb
  refine ⟨c, b, s₂, seg, seg', rest'', new ++ new', σ', hreach.trans hreach', h, fun hnew => ?_⟩
  obtain ⟨hnil, hnil'⟩ := List.append_eq_nil_iff.mp hnew
  exact ⟨(hd hnil).1, hd' hnil'⟩

/-- The word that a statement of one token is. -/
theorem builds_word {scope : ScopeId} {t : Token} {ts done : List Token} {σ : Scopes}
    {rs : List Diagnostic} {e : Node} {ns : List Node} {s : ParseState}
    (h : (.ok [e] (between (done ++ [t]) ts σ rs) : EStateM.Result Fault ParseState _) = .ok ns s)
    (he : Composes scope σ [t] σ (.statement false [e])) :
    ∃ seg rest' new σ', Reached done (t :: ts) rs seg rest' new σ' s ∧
      (new = [] → ReadsStatement scope σ seg σ' rest' ns) := by
  cases h
  exact ⟨[t], ts, [], σ, Reached.single, fun _ => ⟨false, he, fun hfalse => nomatch hfalse⟩⟩

theorem statement_succ (ih : SoundStatements n) (scope : ScopeId) :
    Builds (Parse.statement (n + 1) scope) (fun _ => ReadsStatement scope) := by
  intro done rest σ rs ns s h
  obtain ⟨t, ts, rfl⟩ := (show NeedsToken (Parse.statement (n + 1) scope) by
    rw [Parse.statement]
    exact needsToken_place fun _ => (needsToken_accept _ _).bind).exists_cons h
  rw [statement_between] at h
  split at h
  · rename_i ht
    have hk : t.kind = .varWord ∨ t.kind = .letWord := by simpa using ht.2
    obtain ⟨seg, rest', new, σ', hreach, hd⟩ := builds_declaration scope _ hk h
    exact ⟨t :: seg, rest', new, σ', hreach, hd⟩
  split at h
  · rename_i ht
    obtain ⟨seg, rest', new, σ', hreach, hd⟩ := builds_named t scope ht h
    exact ⟨t :: seg, rest', new, σ', hreach, hd⟩
  split at h
  · rename_i ht
    obtain ⟨e, s₁, hcond, h⟩ := EStateM.bind_eq_ok.mp h
    obtain ⟨rfl, rfl⟩ := EStateM.pure_eq_ok.mp h
    obtain ⟨seg, rest', new, σ', hreach, hd⟩ := ih.conditional scope t ht hcond
    exact ⟨t :: seg, rest', new, σ', hreach, fun hnew => (hd hnew).readsStatement⟩
  split at h
  · rename_i ht
    obtain ⟨c, b, s₁, seg, seg', rest', new, σ', hreach, hf, hd⟩ := ih.builds_conditionBlock h
    obtain ⟨rfl, rfl⟩ := EStateM.pure_eq_ok.mp hf
    refine ⟨t :: (seg ++ seg'), rest', new, σ', hreach.cons, fun hnew => ?_⟩
    rw [placeBefore_concat] at hd
    obtain ⟨hc, hb⟩ := hd hnew
    have hloop : ReadsSingle scope σ (t :: (seg ++ seg')) σ' rest' (.loop c b) := .loop ht hc hb
    exact hloop.readsStatement
  split at h
  · rename_i ht
    obtain ⟨b, s₁, hb, h⟩ := EStateM.bind_eq_ok.mp h
    obtain ⟨rfl, rfl⟩ := EStateM.pure_eq_ok.mp h
    obtain ⟨seg, rest', new, σ', hreach, hd⟩ := ih.block scope hb
    refine ⟨t :: seg, rest', new, σ', hreach.cons, fun hnew => ?_⟩
    have hloop : ReadsSingle scope σ (t :: seg) σ' rest' _ := .endless ht (hd hnew)
    exact hloop.readsStatement
  split at h
  · rename_i ht
    exact builds_word h (.breakLoop ht)
  split at h
  · rename_i ht
    exact builds_word h (.continueLoop ht)
  · obtain ⟨-, seg, rest', new, hreach, hne⟩ := follows_mistake h
    exact ⟨seg, rest', new, σ, hreach, fun hnew => absurd hnew hne⟩

theorem conditional_succ (ih : SoundStatements n) (scope : ScopeId) (t : Token)
    (ht : t.kind = .ifWord) :
    BuildsBehind t (Parse.conditional (n + 1) scope) (ReadsSingle scope) := by
  intro done rest σ rs e s h
  rw [Parse.conditional] at h
  obtain ⟨bs, s₁, hbs, h⟩ := EStateM.bind_eq_ok.mp h
  obtain ⟨seg, rest', new, σ₁, hreach, hd⟩ := ih.branches scope hbs
  rw [placeBefore_concat] at hd
  rw [hreach.state] at h
  obtain ⟨o, us, rfl⟩ := (needsToken_accept _ _).bind.exists_cons h
  rw [accept_one_then (by decide)] at h
  split at h
  · rename_i ho
    obtain ⟨b, s₂, hb, h⟩ := EStateM.bind_eq_ok.mp h
    obtain ⟨rfl, rfl⟩ := EStateM.pure_eq_ok.mp h
    obtain ⟨seg', rest'', new', σ', hreach', hd'⟩ := ih.block scope hb
    rw [List.append_assoc (done ++ [t])] at hreach'
    refine ⟨seg ++ [o] ++ seg', rest'', new ++ new', σ', (hreach.concat.trans hreach').cons, ?_⟩
    intro hnew
    obtain ⟨hnil, hnil'⟩ := List.append_eq_nil_iff.mp hnew
    rw [List.append_assoc, List.singleton_append]
    exact .conditionalElse ht (hd hnil) ho (hd' hnil')
  · -- the place behind the blocks is that of the last brace
    obtain ⟨p, s₂, hp, h⟩ := EStateM.bind_eq_ok.mp h
    obtain ⟨rfl, rfl⟩ := EStateM.pure_eq_ok.mp h
    obtain rfl := state_of_place hp
    refine ⟨seg, o :: us, new, σ₁, ⟨hreach.cons.split, ?_⟩, fun hnew => ?_⟩
    · simp only [List.append_assoc, List.singleton_append]
    · obtain ⟨init, r, rfl⟩ := (hd hnew).exists_concat
      rw [← List.append_assoc, place_concat] at hp
      cases hp
      exact .conditional ht (hd hnew)

theorem branches_succ (ih : SoundStatements n) (scope : ScopeId) :
    Builds (Parse.branches (n + 1) scope)
      (fun before σ seg σ' _ bs => Composes scope σ seg σ' (.branches before bs)) := by
  intro done rest σ rs bs s h
  rw [Parse.branches] at h
  obtain ⟨c, b, s₁, seg, seg', rest', new, σ₁, hreach, hf, hd⟩ := ih.builds_conditionBlock h
  rw [hreach.state] at hf
  obtain ⟨o, us, rfl⟩ := (needsToken_accept _ _).bind.exists_cons hf
  rw [accept_one_then (by decide)] at hf
  split at hf
  · rename_i ho
    obtain ⟨more, s₂, hmore, hf⟩ := EStateM.bind_eq_ok.mp hf
    obtain ⟨rfl, rfl⟩ := EStateM.pure_eq_ok.mp hf
    obtain ⟨seg'', rest'', new', σ', hreach', hd'⟩ := ih.branches scope hmore
    rw [placeBefore_concat] at hd'
    rw [List.append_assoc done] at hreach'
    refine ⟨seg ++ seg' ++ [o] ++ seg'', rest'', new ++ new', σ', hreach.concat.trans hreach', ?_⟩
    intro hnew
    obtain ⟨hnil, hnil'⟩ := List.append_eq_nil_iff.mp hnew
    obtain ⟨hc, hb⟩ := hd hnil
    simp only [List.append_assoc, List.singleton_append]
    exact .branchMore hc hb ho (hd' hnil')
  · obtain ⟨rfl, rfl⟩ := EStateM.pure_eq_ok.mp hf
    refine ⟨seg ++ seg', o :: us, new, σ₁, ⟨hreach.split, rfl⟩, fun hnew => ?_⟩
    obtain ⟨hc, hb⟩ := hd hnew
    exact .branch hc hb

theorem block_succ (ih : SoundStatements n) (scope : ScopeId) :
    Builds (Parse.block (n + 1) scope)
      (fun _ σ seg σ' _ b => Composes scope σ seg σ' (.block b)) := by
  intro done rest σ rs b s h
  obtain ⟨t, ts, rfl⟩ := (show NeedsToken (Parse.block (n + 1) scope) by
    rw [Parse.block]
    exact needsToken_place fun _ => (needsToken_expect _ _).bind).exists_cons h
  rw [block_between] at h
  split at h
  · rename_i ht
    obtain ⟨body, s₁, hbody, h⟩ := EStateM.bind_eq_ok.mp h
    obtain ⟨seg, rest', new, σ', hreach, hd⟩ := ih.blockBody _ hbody
    cases body with
    | some ss =>
      obtain ⟨rfl, rfl⟩ := EStateM.pure_eq_ok.mp h
      refine ⟨t :: seg, rest', new, σ', hreach.cons, fun hnew => ?_⟩
      obtain ⟨ss', seg', r, heq, rfl, hr, hcomposes⟩ := hd hnew
      cases heq
      exact .block ht hr hcomposes
    | none =>
      obtain ⟨-, rfl⟩ := EStateM.pure_eq_ok.mp h
      refine ⟨t :: seg, rest', new, σ', hreach.cons, fun hnew => ?_⟩
      obtain ⟨ss', seg', r, heq, -⟩ := hd hnew
      cases heq
  · obtain ⟨-, seg, rest', new, hreach, hne⟩ := follows_mistake h
    exact ⟨seg, rest', new, σ, hreach, fun hnew => absurd hnew hne⟩

theorem blockBody_succ (ih : SoundStatements n) (scope : ScopeId) :
    Builds (Parse.blockBody (n + 1) scope) (ReadsBody scope) := by
  intro done rest σ rs body s h
  obtain ⟨t, ts, rfl⟩ := (show NeedsToken (Parse.blockBody (n + 1) scope) by
    rw [Parse.blockBody]
    exact (needsToken_accept _ _).bind).exists_cons h
  rw [blockBody_between] at h
  split at h
  · rename_i ht
    obtain ⟨seg, rest', new, σ', hreach, hd⟩ := ih.blockBody scope h
    refine ⟨t :: seg, rest', new, σ', hreach.cons, fun hnew => ?_⟩
    obtain ⟨ss, seg', r, rfl, rfl, hr, hcomposes⟩ := hd hnew
    exact ⟨ss, t :: seg', r, rfl, rfl, hr, .semicolon ht hcomposes⟩
  split at h
  · obtain ⟨-, seg, rest', new, hreach, hne⟩ := follows_mistake h
    exact ⟨seg, rest', new, σ, hreach, fun hnew => absurd hnew hne⟩
  split at h
  · rename_i ht
    cases h
    exact ⟨[t], ts, [], σ, Reached.single, fun _ => ⟨[], [], t, rfl, rfl, ht, .nil⟩⟩
  · obtain ⟨first, s₁, hfirst, h⟩ := EStateM.bind_eq_ok.mp h
    obtain ⟨more, s₂, hmore, h⟩ := EStateM.bind_eq_ok.mp h
    obtain ⟨rfl, rfl⟩ := EStateM.pure_eq_ok.mp h
    obtain ⟨seg, rest', new, σ₁, hreach, hd⟩ := ih.statement scope hfirst
    rw [hreach.state] at hmore
    obtain ⟨seg', rest'', new', σ', hreach', hd'⟩ := ih.blockBody scope hmore
    refine ⟨seg ++ seg', rest'', new ++ new', σ', hreach.trans hreach', fun hnew => ?_⟩
    obtain ⟨hnil, hnil'⟩ := List.append_eq_nil_iff.mp hnew
    obtain ⟨isBare, hstatement, hbare⟩ := hd hnil
    obtain ⟨ss, seg'', r, rfl, rfl, hr, hbody⟩ := hd' hnil'
    refine ⟨first ++ ss, seg ++ seg'', r, rfl, by rw [List.append_assoc], hr, ?_⟩
    refine .cons hstatement hbody fun hb => ?_
    have hfirst := hbare hb
    rw [hreach'.split, List.append_assoc] at hfirst
    exact hfirst.of_append (by rw [hr]; decide)

/-- A reader without a budget returns nothing. -/
theorem builds_throw {α : Type} {P : Pos → Scopes → List Token → Scopes → List Token → α → Prop} :
    Builds (throw .exhausted) P := by
  intro done rest σ rs a s h
  cases h

/-- **The readers of statements follow the grammar**, whatever the budget. -/
theorem all : ∀ n, SoundStatements n
  | 0 =>
    { statement := fun scope => by rw [Parse.statement]; exact builds_throw
      conditional := fun scope t ht => by
        rw [Parse.conditional]
        intro done rest σ rs a s h
        cases h
      branches := fun scope => by rw [Parse.branches]; exact builds_throw
      block := fun scope => by rw [Parse.block]; exact builds_throw
      blockBody := fun scope => by rw [Parse.blockBody]; exact builds_throw }
  | n + 1 =>
    have ih := all n
    ⟨ih.statement_succ, ih.conditional_succ, ih.branches_succ, ih.block_succ, ih.blockBody_succ⟩

end SoundStatements

/-! ## Programs -/

/-- The statements of a program have been read, up to a token that marks the end. -/
theorem Parse.builds_programBody (n : Nat) :
    Builds (programBody n) (fun _ σ seg σ' rest ss =>
      Composes Scopes.root σ seg σ' (.body ss) ∧ ∃ u more, rest = u :: more ∧ u.kind = .endOfFile) := by
  induction n with
  | zero => exact SoundStatements.builds_throw
  | succ n ih =>
    intro done rest σ rs ss s h
    obtain ⟨t, ts, rfl⟩ := (needsToken_accept _ _).bind.exists_cons h
    rw [programBody_between] at h
    split at h
    · rename_i ht
      obtain ⟨seg, rest', new, σ', hreach, hd⟩ := ih h
      refine ⟨t :: seg, rest', new, σ', hreach.cons, fun hnew => ?_⟩
      obtain ⟨hcomposes, hend⟩ := hd hnew
      exact ⟨.semicolon ht hcomposes, hend⟩
    split at h
    · rename_i ht
      cases h
      exact ⟨[], t :: ts, [], σ, Reached.refl, fun _ => ⟨.nil, t, ts, rfl, ht⟩⟩
    · obtain ⟨first, s₁, hfirst, h⟩ := EStateM.bind_eq_ok.mp h
      obtain ⟨more, s₂, hmore, h⟩ := EStateM.bind_eq_ok.mp h
      obtain ⟨rfl, rfl⟩ := EStateM.pure_eq_ok.mp h
      obtain ⟨seg, rest', new, σ₁, hreach, hd⟩ := (SoundStatements.all n).statement _ hfirst
      rw [hreach.state] at hmore
      obtain ⟨seg', rest'', new', σ', hreach', hd'⟩ := ih hmore
      refine ⟨seg ++ seg', rest'', new ++ new', σ', hreach.trans hreach', fun hnew => ?_⟩
      obtain ⟨hnil, hnil'⟩ := List.append_eq_nil_iff.mp hnew
      obtain ⟨isBare, hstatement, hbare⟩ := hd hnil
      obtain ⟨hbody, u, us, rfl, hu⟩ := hd' hnil'
      refine ⟨.cons hstatement hbody fun hb => ?_, u, us, rfl, hu⟩
      have hfirst := hbare hb
      rw [hreach'.split] at hfirst
      exact hfirst.of_append (by rw [hu]; decide)

/-- **What is read as a program without a report is composed by the grammar**, up to the first token
that marks the end, and no call is exposed in it. -/
theorem exists_composes_of_parseProgram {tokens : List Token} {n : Node} {s : ParseState}
    (h : parseProgram tokens = .ok n s) (hquiet : s.reports = []) :
    ∃ body u more σ ss, tokens = body ++ u :: more ∧ u.kind = .endOfFile ∧
      n = .program ss Scopes.root ∧ s = between body (u :: more) σ [] ∧
      Composes Scopes.root {} body σ (.body ss) ∧ Node.exposesCallAny ss = false := by
  have hrun := h
  rw [Parse.parseProgram_eq] at hrun
  obtain ⟨ss, s', hbody, hrun⟩ := EStateM.bind_eq_ok.mp hrun
  obtain ⟨rfl, rfl⟩ := EStateM.pure_eq_ok.mp hrun
  obtain ⟨body, rest, new, σ, hreach, hd⟩ := Parse.builds_programBody _ hbody
  have hstate := hreach.state
  rw [List.nil_append] at hstate
  obtain rfl : new = [] := by
    rw [hstate] at hquiet
    exact hquiet
  obtain ⟨hcomposes, u, more, rfl, hu⟩ := hd rfl
  obtain rfl := hreach.split
  refine ⟨body, u, more, σ, ss, rfl, hu, rfl, hstate, hcomposes, ?_⟩
  -- an exposed call would have ended the reading
  rw [← Bool.not_eq_true]
  intro hexposes
  obtain ⟨_, herror⟩ := (parseProgram_becomes_of_append more hcomposes hu).exists_error hexposes
  rw [herror] at h
  cases h

/-- What the grammar composes, with no exposed call in it, is read as a program without a report. -/
theorem Composes.parseProgram_eq {body : List Token} {u : Token} {σ : Scopes} {ss : List Node}
    (h : Composes Scopes.root {} body σ (.body ss)) (hexposes : Node.exposesCallAny ss = false)
    (hu : u.kind = .endOfFile) (more : List Token) :
    parseProgram (body ++ u :: more) =
      .ok (.program ss Scopes.root) (between body (u :: more) σ []) :=
  (parseProgram_becomes_of_append more h hu).eq hexposes

end Scriptlet
