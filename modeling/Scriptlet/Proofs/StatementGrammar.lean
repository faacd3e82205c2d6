import Scriptlet.Proofs.ExpressionGrammar

/-! # The grammar of statements

The rules by which a segment of tokens is a statement, a block, or a sequence of statements, stated
without a reader. Line breaks have disappeared before the rules apply, and semicolons between
statements may stand or be missing, except in one place: a declaration whose last variable is not
initialised must be followed by one.

Every block opens a scope, so a rule says which scopes there are before and behind its segment
(`Forms`).
-/
namespace Scriptlet

/-! ## Where statements begin and end -/

/-- Whether a statement can begin with a token of this kind. -/
def TokenKind.beginsStatement : TokenKind → Bool
  | .varWord | .letWord | .identifier | .ifWord | .whileWord | .loopWord | .breakWord
  | .continueWord => true
  | _ => false

/-- Whether a token of this kind can stand behind a statement. -/
def TokenKind.followsStatement : TokenKind → Bool
  | .semicolon | .rightBrace | .endOfFile => true
  | k => k.beginsStatement

theorem TokenKind.followsStatement_of_begins {k : TokenKind} (h : k.beginsStatement = true) :
    k.followsStatement = true := by
  revert h
  cases k <;> decide

/-- What stands behind a statement does not go on with an expression at its end. -/
theorem TokenKind.not_extendsLevel_of_follows {k : TokenKind} (l : Level)
    (h : k.followsStatement = true) : ¬ k.extendsLevel l := by
  refine not_extendsLevel ?_ ?_ l
  · rintro rfl
    cases h
  · rintro op rfl
    cases op <;> cases h

/-- Neither does the beginning of a block. -/
theorem TokenKind.not_extendsLevel_leftBrace (l : Level) :
    ¬ TokenKind.leftBrace.extendsLevel l :=
  not_extendsLevel (by decide) (by rintro ⟨⟩ <;> decide) l

/-! ## Declared variables -/

/-- Behind a token at the place `before`, the given tokens declare variables of a type, which commas
divide; `isBare` says whether the last one is not initialised. -/
inductive Declares (type : String) (isMutable : Bool) :
    (before : Pos) → List Token → (isBare : Bool) → List Node → Prop
  /-- A variable with its value. -/
  | initialised {before : Pos} {t a : Token} {x : String} {seg : List Token} {e : Node}
      (hk : t.kind = .identifier) (hc : t.content = .text x) (ha : a.kind = .assign)
      (value : Derives a.pos seg (.expression .disjunction e)) :
      Declares type isMutable before (t :: a :: seg) false [.declaration x type isMutable e]
  /-- A variable without a value. -/
  | bare {before : Pos} {t : Token} {x : String} (hk : t.kind = .identifier)
      (hc : t.content = .text x) :
      Declares type isMutable before [t] true [.declaration x type isMutable (.empty before)]
  /-- A variable with its value, a comma, and further variables. -/
  | initialisedMore {before : Pos} {t a c : Token} {x : String} {seg seg' : List Token} {e : Node}
      {isBare : Bool} {ds : List Node} (hk : t.kind = .identifier) (hc : t.content = .text x)
      (ha : a.kind = .assign) (value : Derives a.pos seg (.expression .disjunction e))
      (hcomma : c.kind = .comma) (more : Declares type isMutable c.pos seg' isBare ds) :
      Declares type isMutable before (t :: a :: (seg ++ c :: seg')) isBare
        (.declaration x type isMutable e :: ds)
  /-- A variable without a value, a comma, and further variables. -/
  | bareMore {before : Pos} {t c : Token} {x : String} {seg' : List Token} {isBare : Bool}
      {ds : List Node} (hk : t.kind = .identifier) (hc : t.content = .text x)
      (hcomma : c.kind = .comma) (more : Declares type isMutable c.pos seg' isBare ds) :
      Declares type isMutable before (t :: c :: seg') isBare
        (.declaration x type isMutable (.empty before) :: ds)

/-! ## Statements -/

/-- What a segment of tokens is, apart from expressions. -/
inductive Clause where
  /-- A statement, which a declaration of several variables makes several nodes of. It is bare if a
  semicolon has to follow. -/
  | statement (isBare : Bool) (nodes : List Node)
  /-- Conditions and their blocks, behind a token at the given place. -/
  | branches (before : Pos) (branches : List (Node × Node))
  /-- A block. -/
  | block (node : Node)
  /-- Statements one after the other. -/
  | body (nodes : List Node)

/-- Whether a segment is a sequence of statements. -/
def Clause.isBody : Clause → Bool
  | .body _ => true
  | _ => false

/-- **The grammar of statements**: inside the given scope and with the scopes `σ` opened before, the
given tokens make a clause, and the scopes behind them are `σ'`. -/
inductive Forms : (scope : ScopeId) → (σ : Scopes) → List Token → (σ' : Scopes) → Clause → Prop
  /-- A declaration. -/
  | declaration {scope : ScopeId} {σ : Scopes} {k t : Token} {seg : List Token} {isBare : Bool}
      {ds : List Node} (hk : k.kind = .varWord ∨ k.kind = .letWord)
      (ht : t.kind ∈ [TokenKind.intWord, .floatWord, .stringWord, .boolWord])
      (declared : Declares t.text (decide (k.kind ≠ .letWord)) t.pos seg isBare ds) :
      Forms scope σ (k :: t :: seg) σ (.statement isBare ds)
  /-- A call. -/
  | call {scope : ScopeId} {σ : Scopes} {t l r : Token} {f : String} {seg : List Token}
      {es : List Node} (hk : t.kind = .identifier) (hc : t.content = .text f)
      (hl : l.kind = .leftParen) (hr : r.kind = .rightParen)
      (args : Derives l.pos seg (.arguments es)) :
      Forms scope σ (t :: l :: (seg ++ [r])) σ (.statement false [.call f es])
  /-- An assignment. -/
  | assignment {scope : ScopeId} {σ : Scopes} {t a : Token} {x : String} {seg : List Token}
      {e : Node} (hk : t.kind = .identifier) (hc : t.content = .text x) (ha : a.kind = .assign)
      (value : Derives a.pos seg (.expression .disjunction e)) :
      Forms scope σ (t :: a :: seg) σ (.statement false [.assignment x e])
  /-- A compound assignment. -/
  | update {scope : ScopeId} {σ : Scopes} {t a : Token} {x : String} {op : Arithmetic}
      {seg : List Token} {e : Node} (hk : t.kind = .identifier) (hc : t.content = .text x)
      (ha : Parse.compoundAssignments.lookup a.kind = some op)
      (value : Derives a.pos seg (.expression .disjunction e)) :
      Forms scope σ (t :: a :: seg) σ
        (.statement false [.assignment x (.arithmetic op (.identifier x a.pos) e)])
  /-- A conditional statement that does nothing otherwise. -/
  | conditional {scope : ScopeId} {σ σ' : Scopes} {t r : Token} {seg : List Token}
      {bs : List (Node × Node)} (hk : t.kind = .ifWord)
      (branches : Forms scope σ (seg ++ [r]) σ' (.branches t.pos bs)) :
      Forms scope σ (t :: (seg ++ [r])) σ'
        (.statement false [.conditional bs (.empty r.pos)])
  /-- A conditional statement with a last block. -/
  | conditionalElse {scope : ScopeId} {σ σ₁ σ' : Scopes} {t o : Token} {seg seg' : List Token}
      {bs : List (Node × Node)} {b : Node} (hk : t.kind = .ifWord)
      (branches : Forms scope σ seg σ₁ (.branches t.pos bs)) (ho : o.kind = .elseWord)
      (otherwise : Forms scope σ₁ seg' σ' (.block b)) :
      Forms scope σ (t :: (seg ++ o :: seg')) σ'
        (.statement false [.conditional bs (.otherwise b)])
  /-- A loop with a condition. -/
  | loop {scope : ScopeId} {σ σ' : Scopes} {t : Token} {seg seg' : List Token} {c b : Node}
      (hk : t.kind = .whileWord) (condition : Derives t.pos seg (.expression .disjunction c))
      (block : Forms scope σ seg' σ' (.block b)) :
      Forms scope σ (t :: (seg ++ seg')) σ' (.statement false [.loop c b])
  /-- A loop without a condition. -/
  | endless {scope : ScopeId} {σ σ' : Scopes} {t : Token} {seg : List Token} {b : Node}
      (hk : t.kind = .loopWord) (block : Forms scope σ seg σ' (.block b)) :
      Forms scope σ (t :: seg) σ'
        (.statement false [.loop (.literal .bool (.bool true) t.pos) b])
  /-- `break`. -/
  | breakLoop {scope : ScopeId} {σ : Scopes} {t : Token} (hk : t.kind = .breakWord) :
      Forms scope σ [t] σ (.statement false [.breakLoop])
  /-- `continue`. -/
  | continueLoop {scope : ScopeId} {σ : Scopes} {t : Token} (hk : t.kind = .continueWord) :
      Forms scope σ [t] σ (.statement false [.continueLoop])
  /-- A condition and its block. -/
  | branch {scope : ScopeId} {σ σ' : Scopes} {before : Pos} {seg seg' : List Token} {c b : Node}
      (condition : Derives before seg (.expression .disjunction c))
      (block : Forms scope σ seg' σ' (.block b)) :
      Forms scope σ (seg ++ seg') σ' (.branches before [(c, b)])
  /-- A condition and its block, `elif`, and further ones. -/
  | branchMore {scope : ScopeId} {σ σ₁ σ' : Scopes} {before : Pos} {o : Token}
      {seg seg' seg'' : List Token} {c b : Node} {bs : List (Node × Node)}
      (condition : Derives before seg (.expression .disjunction c))
      (block : Forms scope σ seg' σ₁ (.block b)) (ho : o.kind = .elifWord)
      (more : Forms scope σ₁ seg'' σ' (.branches o.pos bs)) :
      Forms scope σ (seg ++ (seg' ++ o :: seg'')) σ' (.branches before ((c, b) :: bs))
  /-- A block has a scope of its own. -/
  | block {scope : ScopeId} {σ σ' : Scopes} {l r : Token} {seg : List Token} {ss : List Node}
      (hl : l.kind = .leftBrace) (hr : r.kind = .rightBrace)
      (body : Forms (σ.openIn scope).2 (σ.openIn scope).1 seg σ' (.body ss)) :
      Forms scope σ (l :: (seg ++ [r])) σ' (.block (.block ss (σ.openIn scope).2))
  /-- No statement. -/
  | nil {scope : ScopeId} {σ : Scopes} : Forms scope σ [] σ (.body [])
  /-- A semicolon. -/
  | semicolon {scope : ScopeId} {σ σ' : Scopes} {t : Token} {seg : List Token} {ss : List Node}
      (hk : t.kind = .semicolon) (rest : Forms scope σ seg σ' (.body ss)) :
      Forms scope σ (t :: seg) σ' (.body ss)
  /-- A statement, and what follows it. -/
  | cons {scope : ScopeId} {σ σ₁ σ' : Scopes} {seg seg' : List Token} {isBare : Bool}
      {ns ss : List Node} (first : Forms scope σ seg σ₁ (.statement isBare ns))
      (rest : Forms scope σ₁ seg' σ' (.body ss))
      (hbare : isBare = true → ∃ t ts, seg' = t :: ts ∧ t.kind = .semicolon) :
      Forms scope σ (seg ++ seg') σ' (.body (ns ++ ss))

namespace Forms
variable {scope : ScopeId} {σ σ' : Scopes} {seg : List Token}

/-- Conditions and their blocks have a last token. -/
theorem exists_concat {before : Pos} {bs : List (Node × Node)}
    (h : Forms scope σ seg σ' (.branches before bs)) : ∃ init r, seg = init ++ [r] := by
  have hne : seg ≠ [] := by
    cases h with
    | branch condition | branchMore condition =>
      exact List.append_ne_nil_of_left_ne_nil condition.ne_nil _
  exact ⟨seg.dropLast, seg.getLast hne, (List.dropLast_concat_getLast hne).symm⟩

end Forms

/-! ## Nodes without their places -/

mutual

/-- A node, with all places in it forgotten. -/
def Node.unplaced : Node → Node
  | .empty _ => .empty Pos.none
  | .literal kind v _ => .literal kind v Pos.none
  | .identifier x _ => .identifier x Pos.none
  | .signed op o => .signed op o.unplaced
  | .negation o => .negation o.unplaced
  | .logic op l r => .logic op l.unplaced r.unplaced
  | .comparison op l r => .comparison op l.unplaced r.unplaced
  | .arithmetic op l r => .arithmetic op l.unplaced r.unplaced
  | .assignment x v => .assignment x v.unplaced
  | .declaration x type isMutable v => .declaration x type isMutable v.unplaced
  | .call f args => .call f (Node.unplacedAll args)
  | .otherwise b => .otherwise b.unplaced
  | .conditional branches o => .conditional (Node.unplacedBranches branches) o.unplaced
  | .loop c b => .loop c.unplaced b.unplaced
  | .block ss i => .block (Node.unplacedAll ss) i
  | .program ss i => .program (Node.unplacedAll ss) i
  | .breakLoop => .breakLoop
  | .continueLoop => .continueLoop
  | .bare => .bare
  | .raw v => .raw v

/-- Nodes, with all places in them forgotten. -/
def Node.unplacedAll : List Node → List Node
  | [] => []
  | n :: rest => n.unplaced :: Node.unplacedAll rest

/-- Conditions and blocks, with all places in them forgotten. -/
def Node.unplacedBranches : List (Node × Node) → List (Node × Node)
  | [] => []
  | (c, b) :: rest => (c.unplaced, b.unplaced) :: Node.unplacedBranches rest

end

theorem Operator.unplaced_node (op : Operator) (a b : Node) :
    (op.node a b).unplaced = op.node a.unplaced b.unplaced := by
  cases op <;> simp only [Operator.node, Node.unplaced]

theorem Node.isCall_unplaced (n : Node) : n.unplaced.isCall = n.isCall := by
  cases n <;> simp only [Node.unplaced, Node.isCall]

mutual

/-- Whether a call is exposed does not depend on places. -/
theorem Node.exposesCall_unplaced : ∀ n : Node, n.unplaced.exposesCall = n.exposesCall
  | .signed _ o | .negation o | .assignment _ o | .declaration _ _ _ o => by
    simp only [Node.unplaced, Node.exposesCall, o.isCall_unplaced, o.exposesCall_unplaced]
  | .logic _ l r | .comparison _ l r | .arithmetic _ l r => by
    simp only [Node.unplaced, Node.exposesCall, l.isCall_unplaced, l.exposesCall_unplaced,
      r.exposesCall_unplaced]
  | .call _ ns | .block ns _ | .program ns _ => by
    simp only [Node.unplaced, Node.exposesCall, Node.exposesCallAny_unplaced ns]
  | .otherwise b => by simp only [Node.unplaced, Node.exposesCall, b.exposesCall_unplaced]
  | .conditional branches o => by
    simp only [Node.unplaced, Node.exposesCall, Node.exposesCallBranches_unplaced branches,
      o.exposesCall_unplaced]
  | .loop c b => by
    simp only [Node.unplaced, Node.exposesCall, c.exposesCall_unplaced, b.exposesCall_unplaced]
  | .empty _ | .literal .. | .identifier .. | .breakLoop | .continueLoop | .bare | .raw _ => by
    simp only [Node.unplaced, Node.exposesCall]

theorem Node.exposesCallAny_unplaced :
    ∀ ns : List Node, Node.exposesCallAny (Node.unplacedAll ns) = Node.exposesCallAny ns
  | [] => rfl
  | n :: ns => by
    simp only [Node.unplacedAll, Node.exposesCallAny, n.exposesCall_unplaced,
      Node.exposesCallAny_unplaced ns]

theorem Node.exposesCallBranches_unplaced : ∀ bs : List (Node × Node),
    Node.exposesCallBranches (Node.unplacedBranches bs) = Node.exposesCallBranches bs
  | [] => rfl
  | (c, b) :: bs => by
    simp only [Node.unplacedBranches, Node.exposesCallBranches, c.exposesCall_unplaced,
      b.exposesCall_unplaced, Node.exposesCallBranches_unplaced bs]

end

end Scriptlet
