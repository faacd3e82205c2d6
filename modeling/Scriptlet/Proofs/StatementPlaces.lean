import Scriptlet.Proofs.StatementSoundness

/-! # Statements in their places

Declarations, compound assignments and endless loops are the statements that a single token gives
away: a keyword that they begin with, or the operator behind a name. Wherever such a token stands in
a program, the statement around it is a part of the derivation, and what can replace that statement
can replace it in the whole program (`Composes.exists_statementAt`).

Tokens replace a clause if they make the same nodes, except for places; a statement may be replaced
by several ones (`Clause.ReplacedBy`).
-/
namespace Scriptlet

/-! ## Replacing a clause -/

theorem Node.unplacedAll_append (ns ss : List Node) :
    Node.unplacedAll (ns ++ ss) = Node.unplacedAll ns ++ Node.unplacedAll ss := by
  induction ns with
  | nil => rfl
  | cons n ns ih => simp only [List.cons_append, Node.unplacedAll, ih]

/-- Tokens begin with a semicolon, if the statement before them needs one. -/
def Separates (isBare : Bool) (seg : List Token) : Prop :=
  isBare = true → ∃ t ts, seg = t :: ts ∧ t.kind = .semicolon

namespace Clause

/-- **Tokens that can replace a clause**: they make the same nodes, except for places. What replaces
a statement is described together with the statements behind it, because it may be several ones. -/
def ReplacedBy (scope : ScopeId) (σ : Scopes) (seg : List Token) (σ' : Scopes) : Clause → Prop
  | .statement isBare ns => ∃ ns', Node.unplacedAll ns' = Node.unplacedAll ns ∧
      ∀ rest σ'' ss, Composes scope σ' rest σ'' (.body ss) → Separates isBare rest →
        Composes scope σ (seg ++ rest) σ'' (.body (ns' ++ ss))
  | .branches before bs => ∃ bs', Node.unplacedBranches bs' = Node.unplacedBranches bs ∧
      Composes scope σ seg σ' (.branches before bs')
  | .block b => ∃ b', b'.unplaced = b.unplaced ∧ Composes scope σ seg σ' (.block b')
  | .body ss => ∃ ss', Node.unplacedAll ss' = Node.unplacedAll ss ∧
      Composes scope σ seg σ' (.body ss')

variable {scope : ScopeId} {σ σ₁ σ' : Scopes} {seg seg' seg'' : List Token} {t o : Token}
  {e b : Node} {bs : List (Node × Node)} {isBare isBare' : Bool} {ns ns' ss : List Node}

/-- One statement replaces another one, if it needs no semicolon where the other did not. -/
theorem replacedBy_statement (h : Composes scope σ seg σ' (.statement isBare' ns'))
    (hbare : isBare' = true → isBare = true) (hns : Node.unplacedAll ns' = Node.unplacedAll ns) :
    (Clause.statement isBare ns).ReplacedBy scope σ seg σ' :=
  ⟨ns', hns, fun _ _ _ hrest hsep => .cons h hrest fun hb => hsep (hbare hb)⟩

theorem replacedBy_self {c : Clause} (h : Composes scope σ seg σ' c) :
    c.ReplacedBy scope σ seg σ' := by
  cases c with
  | statement isBare ns => exact replacedBy_statement h id rfl
  | branches before bs => exact ⟨bs, rfl, h⟩
  | block b => exact ⟨b, rfl, h⟩
  | body ss => exact ⟨ss, rfl, h⟩

namespace ReplacedBy

theorem conditional (p : Pos) (hk : t.kind = .ifWord)
    (h : (Clause.branches t.pos bs).ReplacedBy scope σ seg σ') :
    (Clause.statement false [.conditional bs (.empty p)]).ReplacedBy scope σ (t :: seg) σ' := by
  obtain ⟨bs', hbs, h⟩ := h
  obtain ⟨init, r, rfl⟩ := h.exists_concat
  refine replacedBy_statement (.conditional hk h) id ?_
  simp only [Node.unplacedAll, Node.unplaced, hbs]

theorem conditionalElse (hk : t.kind = .ifWord)
    (h : (Clause.branches t.pos bs).ReplacedBy scope σ seg σ₁) (ho : o.kind = .elseWord)
    (h' : (Clause.block b).ReplacedBy scope σ₁ seg' σ') :
    (Clause.statement false [.conditional bs (.otherwise b)]).ReplacedBy scope σ
      (t :: (seg ++ o :: seg')) σ' := by
  obtain ⟨bs', hbs, h⟩ := h
  obtain ⟨b', hb, h'⟩ := h'
  refine replacedBy_statement (.conditionalElse hk h ho h') id ?_
  simp only [Node.unplacedAll, Node.unplaced, hbs, hb]

theorem loop (hk : t.kind = .whileWord) (condition : Spans t.pos seg (.expression .disjunction e))
    (h : (Clause.block b).ReplacedBy scope σ seg' σ') :
    (Clause.statement false [.loop e b]).ReplacedBy scope σ (t :: (seg ++ seg')) σ' := by
  obtain ⟨b', hb, h⟩ := h
  refine replacedBy_statement (.loop hk condition h) id ?_
  simp only [Node.unplacedAll, Node.unplaced, hb]

theorem endless (hk : t.kind = .loopWord) (h : (Clause.block b).ReplacedBy scope σ seg σ') :
    (Clause.statement false [.loop (.literal .bool (.bool true) t.pos) b]).ReplacedBy scope σ
      (t :: seg) σ' := by
  obtain ⟨b', hb, h⟩ := h
  refine replacedBy_statement (.endless hk h) id ?_
  simp only [Node.unplacedAll, Node.unplaced, hb]

theorem branch {before : Pos} (condition : Spans before seg (.expression .disjunction e))
    (h : (Clause.block b).ReplacedBy scope σ seg' σ') :
    (Clause.branches before [(e, b)]).ReplacedBy scope σ (seg ++ seg') σ' := by
  obtain ⟨b', hb, h⟩ := h
  exact ⟨_, by simp only [Node.unplacedBranches, hb], .branch condition h⟩

theorem branchMore {before : Pos} (condition : Spans before seg (.expression .disjunction e))
    (h : (Clause.block b).ReplacedBy scope σ seg' σ₁) (ho : o.kind = .elifWord)
    (h' : (Clause.branches o.pos bs).ReplacedBy scope σ₁ seg'' σ') :
    (Clause.branches before ((e, b) :: bs)).ReplacedBy scope σ (seg ++ (seg' ++ o :: seg'')) σ' := by
  obtain ⟨b', hb, h⟩ := h
  obtain ⟨bs', hbs, h'⟩ := h'
  exact ⟨_, by simp only [Node.unplacedBranches, hb, hbs], .branchMore condition h ho h'⟩

theorem block {l r : Token} (hl : l.kind = .leftBrace) (hr : r.kind = .rightBrace)
    (h : (Clause.body ss).ReplacedBy (σ.openIn scope).2 (σ.openIn scope).1 seg σ') :
    (Clause.block (.block ss (σ.openIn scope).2)).ReplacedBy scope σ (l :: (seg ++ [r])) σ' := by
  obtain ⟨ss', hss, h⟩ := h
  exact ⟨_, by simp only [Node.unplaced, hss], .block hl hr h⟩

theorem semicolon (hk : t.kind = .semicolon) (h : (Clause.body ss).ReplacedBy scope σ seg σ') :
    (Clause.body ss).ReplacedBy scope σ (t :: seg) σ' := by
  obtain ⟨ss', hss, h⟩ := h
  exact ⟨ss', hss, .semicolon hk h⟩

theorem cons (h : (Clause.statement isBare ns).ReplacedBy scope σ seg σ₁)
    (h' : (Clause.body ss).ReplacedBy scope σ₁ seg' σ') (hsep : Separates isBare seg') :
    (Clause.body (ns ++ ss)).ReplacedBy scope σ (seg ++ seg') σ' := by
  obtain ⟨ns', hns, h⟩ := h
  obtain ⟨ss', hss, h'⟩ := h'
  exact ⟨_, by simp only [Node.unplacedAll_append, hns, hss], h _ _ _ h' hsep⟩

end ReplacedBy

end Clause

/-! ## Tokens that give a statement away -/

/-- Whether a token of this kind stands in one kind of statement only, and in one place of it. -/
def TokenKind.marksStatement : TokenKind → Bool
  | .varWord | .letWord | .loopWord | .plusAssign | .minusAssign | .starAssign | .slashAssign
  | .doubleStarAssign | .percentAssign => true
  | _ => false

theorem TokenKind.marksStatement_of_inExpression {k : TokenKind} (h : k.inExpression = true) :
    k.marksStatement = false := by
  revert h
  cases k <;> decide

theorem Spans.marksStatement {before : Pos} {seg : List Token} {p : Phrase}
    (h : Spans before seg p) : ∀ t ∈ seg, t.kind.marksStatement = false :=
  fun t ht => TokenKind.marksStatement_of_inExpression (h.inExpression t ht)

theorem Introduces.marksStatement {type : String} {isMutable isBare : Bool} {before : Pos}
    {seg : List Token} {ds : List Node} (h : Introduces type isMutable before seg isBare ds) :
    ∀ t ∈ seg, t.kind.marksStatement = false := by
  intro t ht
  rcases h.kind_of_mem t ht with hk | hk
  · rw [hk]
    rfl
  · exact TokenKind.marksStatement_of_inExpression hk

/-- The statement around a token that gives it away: it begins with that token, or with a name before
it. -/
structure StatementAt (key : Token) where
  /-- The tokens of the statement before the token. -/
  pre : List Token
  /-- The tokens of the statement behind the token. -/
  post : List Token
  /-- The scope of the statement. -/
  scope : ScopeId
  /-- The scopes that have been opened before it. -/
  σ : Scopes
  /-- The scopes that have been opened when it ends. -/
  σ' : Scopes
  /-- Whether it needs a semicolon. -/
  isBare : Bool
  /-- Its nodes. -/
  nodes : List Node
  composes : Composes scope σ (pre ++ key :: post) σ' (.statement isBare nodes)
  pre_cases : pre = [] ∧ key.kind.beginsStatement = true ∨
    ∃ x : Token, pre = [x] ∧ x.kind = .identifier ∧ key.kind.beginsStatement = false

/-- A statement begins with a token that statements begin with. -/
theorem StatementAt.pre_eq_nil {key : Token} (a : StatementAt key)
    (hkey : key.kind.beginsStatement = true) : a.pre = [] := by
  rcases a.pre_cases with ⟨hnil, -⟩ | ⟨x, -, -, hnot⟩
  · exact hnil
  · rw [hkey] at hnot
    cases hnot

/-- Before a token that statements do not begin with stands a name. -/
theorem StatementAt.exists_name {key : Token} (a : StatementAt key)
    (hkey : key.kind.beginsStatement = false) :
    ∃ x : Token, a.pre = [x] ∧ x.kind = .identifier := by
  rcases a.pre_cases with ⟨-, hbegins⟩ | ⟨x, hpre, hx, -⟩
  · rw [hkey] at hbegins
    cases hbegins
  · exact ⟨x, hpre, hx⟩

/-- The operators of compound assignments do not begin statements. -/
theorem beginsStatement_of_lookup {k : TokenKind} {op : Arithmetic}
    (h : Parse.compoundAssignments.lookup k = some op) : k.beginsStatement = false := by
  obtain ⟨l₁, l₂, hlist, -⟩ := List.lookup_eq_some_iff.mp h
  have hall : ∀ entry ∈ Parse.compoundAssignments, entry.1.beginsStatement = false := by decide
  exact hall (k, op) (by simp [hlist])

/-- Whether a call is exposed in a clause. -/
def Clause.exposesCall : Clause → Bool
  | .statement _ ns => Node.exposesCallAny ns
  | .branches _ bs => Node.exposesCallBranches bs
  | .block b => b.exposesCall
  | .body ss => Node.exposesCallAny ss

/-- Whether a clause can end with a statement: what stands behind the clause then stands behind that
statement too. -/
def Clause.endsOpen : Clause → Bool
  | .statement .. | .body _ => true
  | .branches .. | .block _ => false

namespace StatementAt
variable {key : Token} {a : StatementAt key} {before behind : List Token} {scope : ScopeId}
  {σ σ' : Scopes} {c : Clause}

/-- **A statement in a clause**, with the tokens before and behind it. -/
structure LiesIn (a : StatementAt key) (before behind : List Token) (scope : ScopeId)
    (σ σ' : Scopes) (c : Clause) : Prop where
  /-- A call that is exposed in the statement is exposed in the clause. -/
  exposes : c.exposesCall = false → Node.exposesCallAny a.nodes = false
  /-- What stands behind it can follow a statement. -/
  follows : ∀ u : Token, (c.endsOpen = true → u.kind.followsStatement = true) →
    ∀ v ∈ (behind ++ [u]).head?, v.kind.followsStatement = true
  /-- What replaces the statement makes the same clause again. -/
  replace : ∀ seg, (Clause.statement a.isBare a.nodes).ReplacedBy a.scope a.σ seg a.σ' →
    c.ReplacedBy scope σ (before ++ seg ++ behind) σ'

/-- The statement itself. -/
theorem liesIn_self (a : StatementAt key) :
    a.LiesIn [] [] a.scope a.σ a.σ' (.statement a.isBare a.nodes) where
  exposes := id
  follows := by
    intro u hu v hv
    cases hv
    exact hu rfl
  replace := by
    intro seg h
    rwa [List.nil_append, List.append_nil]

/-- A statement of a part lies in the whole, which has `left` and `right` around the part. -/
theorem LiesIn.within (h : a.LiesIn before behind scope σ σ' c) {left right : List Token}
    {scope₁ : ScopeId} {σ₁ σ₁' : Scopes} {c₁ : Clause}
    (hexposes : c₁.exposesCall = false → c.exposesCall = false)
    (hfollows : ∀ u : Token, (c₁.endsOpen = true → u.kind.followsStatement = true) →
      ∀ v ∈ (right ++ [u]).head?, c.endsOpen = true → v.kind.followsStatement = true)
    (hreplace : ∀ seg, c.ReplacedBy scope σ (before ++ seg ++ behind) σ' →
      c₁.ReplacedBy scope₁ σ₁ (left ++ (before ++ seg ++ behind) ++ right) σ₁') :
    a.LiesIn (left ++ before) (behind ++ right) scope₁ σ₁ σ₁' c₁ where
  exposes := fun hc => h.exposes (hexposes hc)
  follows := by
    intro u hu v hv
    obtain ⟨w, ws, hw⟩ : ∃ w ws, right ++ [u] = w :: ws := List.exists_cons_of_ne_nil (by simp)
    refine h.follows w (hfollows u hu w (by rw [hw]; rfl)) v ?_
    rw [List.append_assoc, hw] at hv
    cases behind with
    | nil => exact hv
    | cons => exact hv
  replace := by
    intro seg hseg
    have hwhole := hreplace seg (h.replace seg hseg)
    simpa only [List.append_assoc] using hwhole

end StatementAt

/-! ## Finding the statement -/

section
variable {α : Type} {a b l r : List α} {x y : α}

/-- A member of two lists in a row is a member of one of them. -/
theorem exists_of_append_eq (h : a ++ b = l ++ x :: r) :
    (∃ r', a = l ++ x :: r' ∧ r = r' ++ b) ∨ ∃ l', l = a ++ l' ∧ b = l' ++ x :: r := by
  rcases List.append_eq_append_iff.mp h with ⟨l', hl, hb⟩ | ⟨r', ha, hr⟩
  · exact .inr ⟨l', hl, hb⟩
  · cases r' with
    | nil => exact .inr ⟨[], by simpa using ha.symm, hr.symm⟩
    | cons y r' =>
      obtain ⟨rfl, rfl⟩ := List.cons.inj hr
      exact .inl ⟨r', ha, rfl⟩

theorem exists_of_cons_eq (h : y :: b = l ++ x :: r) (hne : y ≠ x) :
    ∃ l', l = y :: l' ∧ b = l' ++ x :: r := by
  rcases List.cons_eq_append_iff.mp h with ⟨-, hhead⟩ | hl
  · exact absurd (List.cons.inj hhead).1.symm hne
  · exact hl

end

namespace StatementAt
variable {key : Token} {l r : List Token} {scope scope₁ : ScopeId} {σ σ' σ₁ σ₁' : Scopes}
  {c c₁ : Clause}

/-- A clause holds the statement around a token, with `l` and `r` around the token. -/
def ExistsIn (key : Token) (l r : List Token) (scope : ScopeId) (σ σ' : Scopes) (c : Clause) : Prop :=
  ∃ (a : StatementAt key) (before behind : List Token),
    l = before ++ a.pre ∧ r = a.post ++ behind ∧ a.LiesIn before behind scope σ σ' c

theorem existsIn_self (a : StatementAt key) :
    ExistsIn key a.pre a.post a.scope a.σ a.σ' (.statement a.isBare a.nodes) :=
  ⟨a, [], [], rfl, (List.append_nil _).symm, liesIn_self a⟩

/-- What holds for a part holds for the whole. -/
theorem ExistsIn.within (h : ExistsIn key l r scope σ σ' c) (left right : List Token)
    (hexposes : c₁.exposesCall = false → c.exposesCall = false)
    (hfollows : ∀ u : Token, (c₁.endsOpen = true → u.kind.followsStatement = true) →
      ∀ v ∈ (right ++ [u]).head?, c.endsOpen = true → v.kind.followsStatement = true)
    (hreplace : ∀ seg, c.ReplacedBy scope σ seg σ' →
      c₁.ReplacedBy scope₁ σ₁ (left ++ seg ++ right) σ₁') :
    ExistsIn key (left ++ l) (r ++ right) scope₁ σ₁ σ₁' c₁ := by
  obtain ⟨a, before, behind, rfl, rfl, hin⟩ := h
  refine ⟨a, left ++ before, behind ++ right, by simp, by simp, ?_⟩
  exact hin.within hexposes hfollows fun seg => hreplace _

/-- Behind a part that ends with a brace, it does not matter what follows. -/
theorem ExistsIn.within_closed (h : ExistsIn key l r scope σ σ' c) (left right : List Token)
    (hclosed : c.endsOpen = false) (hexposes : c₁.exposesCall = false → c.exposesCall = false)
    (hreplace : ∀ seg, c.ReplacedBy scope σ seg σ' →
      c₁.ReplacedBy scope₁ σ₁ (left ++ seg ++ right) σ₁') :
    ExistsIn key (left ++ l) (r ++ right) scope₁ σ₁ σ₁' c₁ :=
  h.within left right hexposes
    (fun _ _ _ _ hopen => absurd (hclosed.symm.trans hopen) Bool.false_ne_true) hreplace

/-- A statement does not begin with a semicolon, so one before it stays where it is. -/
theorem separates (a : StatementAt key) {before behind : List Token} (seg : List Token)
    {isBare : Bool} (h : Separates isBare (before ++ a.pre ++ key :: (a.post ++ behind))) :
    Separates isBare (before ++ seg ++ behind) := by
  intro hbare
  obtain ⟨t, ts, heq, ht⟩ := h hbare
  cases before with
  | nil =>
    obtain ⟨u, us, hu, hbegins⟩ := a.composes.exists_head
    have htu : u :: (us ++ behind) = t :: ts := by
      rw [← heq, ← List.cons_append, ← hu]
      simp
    rw [(List.cons.inj htu).1, ht] at hbegins
    cases hbegins
  | cons u us =>
    obtain rfl : u = t := (List.cons.inj heq).1
    exact ⟨u, _, rfl, ht⟩

section
variable {seg : List Token} {isBare : Bool} {ns ss : List Node} {σ₂ : Scopes}

/-- A statement is followed by further ones. -/
theorem ExistsIn.first (h : ExistsIn key l r scope σ σ₁ (.statement isBare ns))
    (rest : Composes scope σ₁ seg σ₂ (.body ss)) (hbare : Separates isBare seg) :
    ExistsIn key l (r ++ seg) scope σ σ₂ (.body (ns ++ ss)) := by
  refine h.within [] seg ?_ ?_ fun new hnew => ?_
  · simp +contextual [Clause.exposesCall, Clause.exposesCallAny_append]
  · intro u hu v hv _
    cases seg with
    | nil =>
      cases hv
      exact hu rfl
    | cons w ws => exact rest.followsStatement_head v hv
  · exact hnew.cons (Clause.replacedBy_self rest) hbare

/-- Further statements stand behind one. -/
theorem ExistsIn.rest (h : ExistsIn key l r scope σ₁ σ₂ (.body ss))
    (first : Composes scope σ seg σ₁ (.statement isBare ns))
    (hbare : Separates isBare (l ++ key :: r)) :
    ExistsIn key (seg ++ l) r scope σ σ₂ (.body (ns ++ ss)) := by
  obtain ⟨a, before, behind, rfl, rfl, hin⟩ := h
  refine ⟨a, seg ++ before, behind ++ [], by simp, by simp, hin.within ?_ ?_ fun new hnew => ?_⟩
  · simp +contextual [Clause.exposesCall, Clause.exposesCallAny_append]
  · intro u hu v hv _
    cases hv
    exact hu rfl
  · rw [List.append_nil]
    exact (Clause.replacedBy_self first).cons hnew (a.separates _ hbare)

end

end StatementAt

open StatementAt in
/-- **The statement around a token that gives it away** is a part of the derivation. -/
theorem Composes.exists_statementAt {key : Token} (hkey : key.kind.marksStatement = true)
    {scope : ScopeId} {σ σ' : Scopes} {seg : List Token} {c : Clause}
    (h : Composes scope σ seg σ' c) :
    ∀ {l r : List Token}, seg = l ++ key :: r → ExistsIn key l r scope σ σ' c := by
  -- the token is none of those that stand elsewhere
  have hne : ∀ {t : Token} {k : TokenKind}, t.kind = k → k.marksStatement = false → t ≠ key := by
    rintro t k rfl ht rfl
    rw [hkey] at ht
    cases ht
  have hnot : ∀ {ts l r : List Token}, (∀ t ∈ ts, t.kind.marksStatement = false) →
      ts = l ++ key :: r → ∀ {p : Prop}, p := by
    rintro ts l r hts rfl p
    exact absurd rfl (hne rfl (hts key (by simp)))
  induction h with
  | @declaration scope σ k t seg isBare ds hk ht declared =>
    intro l r hseg
    have ht' : t.kind.marksStatement = false := by
      revert ht
      cases t.kind <;> decide
    rcases List.cons_eq_append_iff.mp hseg with ⟨rfl, hhead⟩ | ⟨l', -, hl'⟩
    · obtain ⟨rfl, rfl⟩ := List.cons.inj hhead
      have hbegins : key.kind.beginsStatement = true := by
        rcases hk with hk | hk <;> rw [hk] <;> rfl
      exact existsIn_self ⟨[], t :: seg, scope, σ, σ, isBare, ds, .declaration hk ht declared,
        .inl ⟨rfl, hbegins⟩⟩
    · exact hnot (List.forall_mem_cons.mpr ⟨ht', declared.marksStatement⟩) hl'
  | call hk hl hr args =>
    intro l r hseg
    refine hnot ?_ hseg
    simp only [List.forall_mem_cons, List.forall_mem_append]
    exact ⟨hk ▸ rfl, hl ▸ rfl, args.marksStatement, hr ▸ rfl, List.forall_mem_nil _⟩
  | assignment hk ha value =>
    intro l r hseg
    refine hnot ?_ hseg
    simp only [List.forall_mem_cons]
    exact ⟨hk ▸ rfl, ha ▸ rfl, value.marksStatement⟩
  | @update scope σ t a op seg e hk ha value =>
    intro l r hseg
    obtain ⟨l, rfl, htail⟩ := exists_of_cons_eq hseg (hne hk rfl)
    rcases List.cons_eq_append_iff.mp htail with ⟨rfl, hhead⟩ | ⟨l', -, hl'⟩
    · obtain ⟨rfl, rfl⟩ := List.cons.inj hhead
      exact existsIn_self ⟨[t], r, scope, σ, σ, false, _, .update hk ha value,
        .inr ⟨t, rfl, hk, beginsStatement_of_lookup ha⟩⟩
    · exact hnot value.marksStatement hl'
  | @conditional scope σ σ' t r' seg bs hk branches ih =>
    intro l r hseg
    obtain ⟨l, rfl, htail⟩ := exists_of_cons_eq hseg (hne hk rfl)
    rw [← List.append_nil r]
    refine (ih htail).within_closed [t] [] rfl ?_ fun seg hseg => ?_
    · simp [Clause.exposesCall, Node.exposesCallAny, Node.exposesCall]
    · simpa using hseg.conditional r'.pos hk
  | @conditionalElse scope σ σ₁ σ' t o seg seg' bs b hk branches ho otherwise ihb iho =>
    intro l r hseg
    obtain ⟨l, rfl, htail⟩ := exists_of_cons_eq hseg (hne hk rfl)
    rcases exists_of_append_eq htail with ⟨r', hl, rfl⟩ | ⟨l', rfl, hl'⟩
    · refine (ihb hl).within_closed [t] (o :: seg') rfl ?_ fun seg hseg => ?_
      · simp +contextual [Clause.exposesCall, Node.exposesCallAny, Node.exposesCall]
      · simpa using hseg.conditionalElse hk ho (Clause.replacedBy_self otherwise)
    · obtain ⟨l', rfl, hl''⟩ := exists_of_cons_eq hl' (hne ho rfl)
      rw [← List.append_nil r, List.append_cons, ← List.cons_append, ← List.cons_append]
      refine (iho hl'').within_closed _ [] rfl ?_ fun seg hseg => ?_
      · simp +contextual [Clause.exposesCall, Node.exposesCallAny, Node.exposesCall]
      · simpa using (Clause.replacedBy_self branches).conditionalElse hk ho hseg
  | @loop scope σ σ' t seg seg' e b hk condition block ih =>
    intro l r hseg
    obtain ⟨l, rfl, htail⟩ := exists_of_cons_eq hseg (hne hk rfl)
    rcases exists_of_append_eq htail with ⟨r', hl, -⟩ | ⟨l', rfl, hl'⟩
    · exact hnot condition.marksStatement hl
    · rw [← List.append_nil r, ← List.cons_append]
      refine (ih hl').within_closed _ [] rfl ?_ fun seg hseg => ?_
      · simp +contextual [Clause.exposesCall, Node.exposesCallAny, Node.exposesCall]
      · simpa using hseg.loop hk condition
  | @endless scope σ σ' t seg b hk block ih =>
    intro l r hseg
    rcases List.cons_eq_append_iff.mp hseg with ⟨rfl, hhead⟩ | ⟨l', rfl, hl'⟩
    · obtain ⟨rfl, rfl⟩ := List.cons.inj hhead
      exact existsIn_self ⟨[], r, scope, σ, σ', false, _, .endless hk block, .inl ⟨rfl, hk ▸ rfl⟩⟩
    · rw [← List.append_nil r]
      refine (ih hl').within_closed [t] [] rfl ?_ fun seg hseg => ?_
      · simp [Clause.exposesCall, Node.exposesCallAny, Node.exposesCall]
      · simpa using hseg.endless hk
  | breakLoop hk | continueLoop hk =>
    intro l r hseg
    exact hnot (List.forall_mem_singleton.mpr (hk ▸ rfl)) hseg
  | @branch scope σ σ' before seg seg' e b condition block ih =>
    intro l r hseg
    rcases exists_of_append_eq hseg with ⟨r', hl, -⟩ | ⟨l', rfl, hl'⟩
    · exact hnot condition.marksStatement hl
    · rw [← List.append_nil r]
      refine (ih hl').within_closed _ [] rfl ?_ fun seg hseg => ?_
      · simp +contextual [Clause.exposesCall, Node.exposesCallBranches]
      · simpa using hseg.branch condition
  | @branchMore scope σ σ₁ σ' before o seg seg' seg'' e b bs condition block ho more ihb ihm =>
    intro l r hseg
    rcases exists_of_append_eq hseg with ⟨r', hl, -⟩ | ⟨l, rfl, htail⟩
    · exact hnot condition.marksStatement hl
    rcases exists_of_append_eq htail with ⟨r', hl, rfl⟩ | ⟨l', rfl, hl'⟩
    · refine (ihb hl).within_closed _ (o :: seg'') rfl ?_ fun seg hseg => ?_
      · simp +contextual [Clause.exposesCall, Node.exposesCallBranches]
      · simpa using hseg.branchMore condition ho (Clause.replacedBy_self more)
    · obtain ⟨l', rfl, hl''⟩ := exists_of_cons_eq hl' (hne ho rfl)
      rw [← List.append_nil r, List.append_cons, ← List.append_assoc]
      refine (ihm hl'').within_closed _ [] rfl ?_ fun seg hseg => ?_
      · simp +contextual [Clause.exposesCall, Node.exposesCallBranches]
      · simpa using (Clause.replacedBy_self block).branchMore condition ho hseg
  | @block scope σ σ' lb rb seg ss hlb hrb body ih =>
    intro l r hseg
    obtain ⟨l, rfl, htail⟩ := exists_of_cons_eq hseg (hne hlb rfl)
    rcases exists_of_append_eq htail with ⟨r', hl, rfl⟩ | ⟨l', -, hl'⟩
    · refine (ih hl).within [lb] [rb] ?_ ?_ fun seg hseg => ?_
      · simp [Clause.exposesCall, Node.exposesCall]
      · intro u _ v hv _
        cases hv
        rw [hrb]
        rfl
      · simpa using hseg.block hlb hrb
    · exact hnot (List.forall_mem_singleton.mpr (hrb ▸ rfl)) hl'
  | nil =>
    intro l r hseg
    exact hnot (List.forall_mem_nil _) hseg
  | @semicolon scope σ σ' t seg ss hk rest ih =>
    intro l r hseg
    obtain ⟨l, rfl, htail⟩ := exists_of_cons_eq hseg (hne hk rfl)
    rw [← List.append_nil r]
    refine (ih htail).within [t] [] id ?_ fun seg hseg => ?_
    · intro u hu v hv _
      cases hv
      exact hu rfl
    · simpa using hseg.semicolon hk
  | @cons scope σ σ₁ σ' seg seg' isBare ns ss first rest hbare ihf ihr =>
    intro l r hseg
    rcases exists_of_append_eq hseg with ⟨r', hl, rfl⟩ | ⟨l', rfl, hl'⟩
    · exact (ihf hl).first rest hbare
    · rw [hl'] at hbare
      exact (ihr hl').rest first hbare

end Scriptlet
