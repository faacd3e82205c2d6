import Scriptlet.Proofs.StatementGrammar
import Scriptlet.Proofs.TokenShape

/-! # The grammar of all lists of tokens

Which segments of tokens are expressions and statements depends on the kinds of the tokens alone; what
a token says only goes into the node that is made of it. The rules here are those of `Derives`,
`Declares` and `Forms` without any demand on what the tokens say, so they hold of lists of tokens that
no text is scanned to as well, and every rule gives the node that a reader makes (`Spans`,
`Introduces`, `Composes`).

For tokens that say what their kinds say, the two grammars agree (`Derives.spans`, `Forms.composes`).
-/
namespace Scriptlet

open Parse (numberNode compoundAssignments)

/-! ## Operators as they are written -/

/-- Two parts and an operator of a level between them, which is given as it is written. -/
def Level.joined (l : Level) (operator : String) (left right : Node) : Node :=
  match l with
  | disjunction => .logic .or left right
  | conjunction => .logic .and left right
  | equality | comparison => .comparison (Comparison.ofSymbol operator) left right
  | power => .arithmetic .pow left right
  | _ => .arithmetic (Arithmetic.ofSymbol operator) left right

namespace Level
variable (l : Level) (operator : String) (a b : Node)

/-- Joining two parts fails only if the left one has no place. -/
theorem join_eq : l.join operator a b = a.pos.map fun _ => l.joined operator a b := by
  cases l <;> rfl

theorem pos?_joined : (l.joined operator a b).pos? = a.pos? := by
  cases l <;> rfl

theorem exposesCall_joined :
    (l.joined operator a b).exposesCall = (a.isCall || a.exposesCall || b.exposesCall) := by
  cases l <;> simp only [joined, Node.exposesCall]

end Level

theorem Operator.joined_symbol (op : Operator) (a b : Node) :
    op.level.joined op.symbol a b = op.node a b := by
  cases op <;> rfl

/-! ## Expressions -/

/-- **The grammar of expressions, by the kinds of tokens**: behind a token at the place `before`, the
given tokens make a phrase. -/
inductive Spans : (before : Pos) → List Token → Phrase → Prop
  /-- A number. -/
  | number {before : Pos} {t : Token} (hk : t.kind = .number) :
      Spans before [t] (.expression .primitive (numberNode t))
  /-- A text literal. -/
  | text {before : Pos} {t : Token} (hk : t.kind = .text) :
      Spans before [t] (.expression .primitive (.literal .string t.content.value t.pos))
  /-- `true`. -/
  | truth {before : Pos} {t : Token} (hk : t.kind = .trueWord) :
      Spans before [t] (.expression .primitive (.literal .bool (.bool true) t.pos))
  /-- `false`. -/
  | falsehood {before : Pos} {t : Token} (hk : t.kind = .falseWord) :
      Spans before [t] (.expression .primitive (.literal .bool (.bool false) t.pos))
  /-- `none`. -/
  | nothing {before : Pos} {t : Token} (hk : t.kind = .noneWord) :
      Spans before [t] (.expression .primitive (.empty before))
  /-- A name. -/
  | name {before : Pos} {t : Token} (hk : t.kind = .identifier) :
      Spans before [t] (.expression .primitive (.identifier t.text t.pos))
  /-- A call. -/
  | call {before : Pos} {t l r : Token} {seg : List Token} {es : List Node}
      (hk : t.kind = .identifier) (hl : l.kind = .leftParen) (hr : r.kind = .rightParen)
      (args : Spans l.pos seg (.arguments es)) :
      Spans before (t :: l :: (seg ++ [r])) (.expression .primitive (.call t.text es))
  /-- An expression in parentheses. -/
  | group {before : Pos} {l r : Token} {seg : List Token} {e : Node} (hl : l.kind = .leftParen)
      (hr : r.kind = .rightParen) (inner : Spans l.pos seg (.expression .disjunction e)) :
      Spans before (l :: (seg ++ [r])) (.expression .primitive e)
  /-- An expression behind a minus sign. -/
  | sign {before : Pos} {t : Token} {seg : List Token} {e : Node} (hk : t.kind = .minus)
      (operand : Spans t.pos seg (.expression .sign e)) :
      Spans before (t :: seg) (.expression .sign (.signed (Sign.ofSymbol t.text) e))
  /-- An expression behind `not`. -/
  | negation {before : Pos} {t : Token} {seg : List Token} {e : Node} (hk : t.kind = .notWord)
      (operand : Spans t.pos seg (.expression .negation e)) :
      Spans before (t :: seg) (.expression .negation (.negation e))
  /-- Two expressions and an operator between them. -/
  | join {before : Pos} {t : Token} {seg seg' : List Token} {a b : Node} (op : Operator)
      (left : Spans before seg (.expression op.level.leftSide a)) (hk : t.kind = op.kind)
      (right : Spans t.pos seg' (.expression op.level.rightSide b)) :
      Spans before (seg ++ t :: seg') (.expression op.level (op.level.joined t.text a b))
  /-- An expression of the next level. -/
  | lift {before : Pos} {seg : List Token} {l : Level} {e : Node} (hl : l ≠ .primitive)
      (h : Spans before seg (.expression l.next e)) : Spans before seg (.expression l e)
  /-- One argument. -/
  | last {before : Pos} {seg : List Token} {e : Node}
      (h : Spans before seg (.expression .disjunction e)) : Spans before seg (.arguments [e])
  /-- An argument, a comma, and further arguments. -/
  | more {before : Pos} {c : Token} {seg seg' : List Token} {e : Node} {es : List Node}
      (first : Spans before seg (.expression .disjunction e)) (hc : c.kind = .comma)
      (rest : Spans c.pos seg' (.arguments es)) :
      Spans before (seg ++ c :: seg') (.arguments (e :: es))

/-- **What is derived is spanned**, if the tokens say what their kinds say. -/
theorem Derives.spans {before : Pos} {seg : List Token} {p : Phrase} (h : Derives before seg p)
    (hs : ∀ t ∈ seg, t.Shaped) : Spans before seg p := by
  induction h with
  | @integer before t n hk hc =>
    have hnode : numberNode t = .literal .int (.int n) t.pos := by
      rw [numberNode, hc]
      rfl
    exact hnode ▸ .number hk
  | @decimal before t x hk hc =>
    have hnode : numberNode t = .literal .float (.float x) t.pos := by
      rw [numberNode, hc]
    exact hnode ▸ .number hk
  | @text before t s hk hc =>
    have hvalue : t.content.value = .str s := by
      rw [hc]
      rfl
    exact hvalue ▸ .text hk
  | truth hk => exact .truth hk
  | falsehood hk => exact .falsehood hk
  | nothing hk => exact .nothing hk
  | name hk hc => exact Token.text_of_content hc ▸ .name hk
  | call hk hc hl hr args ih =>
    exact Token.text_of_content hc ▸ .call hk hl hr (ih fun t ht => hs t (by simp [ht]))
  | group hl hr inner ih => exact .group hl hr (ih fun t ht => hs t (by simp [ht]))
  | @sign before t seg e hk operand ih =>
    have htext : t.text = "-" := (hs t List.mem_cons_self).text_eq (by rw [hk]; decide)
    have hsign : Sign.ofSymbol t.text = .minus := by
      rw [htext]
      rfl
    exact hsign ▸ .sign hk (ih fun t ht => hs t (List.mem_cons_of_mem _ ht))
  | negation hk operand ih =>
    exact .negation hk (ih fun t ht => hs t (List.mem_cons_of_mem _ ht))
  | @join before t seg seg' a b op left hk right ihl ihr =>
    have htext : t.text = op.symbol := by
      refine (hs t (by simp)).text_eq ?_
      rw [hk]
      cases op <;> decide
    rw [← op.joined_symbol, ← htext]
    exact .join op (ihl fun t ht => hs t (by simp [ht])) hk (ihr fun t ht => hs t (by simp [ht]))
  | lift hl h ih => exact .lift hl (ih hs)
  | last h ih => exact .last (ih hs)
  | more first hc rest ihf ihr =>
    exact .more (ihf fun t ht => hs t (by simp [ht])) hc (ihr fun t ht => hs t (by simp [ht]))

/-- A number token that says a number is a number literal. -/
theorem Token.Shaped.derives_numberNode {t : Token} (ht : t.Shaped) (before : Pos)
    (hk : t.kind = .number) : Derives before [t] (.expression .primitive (numberNode t)) := by
  have hs : (∃ n, t.content = .int n) ∨ ∃ x, t.content = .float x := by
    rw [Token.Shaped, hk] at ht
    exact ht
  rcases hs with ⟨n, hc⟩ | ⟨x, hc⟩
  · rw [numberNode, hc]
    exact .integer hk hc
  · rw [numberNode, hc]
    exact .decimal hk hc

/-- The text of a name or of a text literal. -/
theorem Token.Shaped.exists_text {t : Token} (ht : t.Shaped)
    (hk : t.kind = .text ∨ t.kind = .identifier) : ∃ x, t.content = .text x := by
  rcases hk with hk | hk
  · rw [Token.Shaped, hk] at ht
    exact ht
  · rw [Token.Shaped, hk] at ht
    exact ht

/-- **What is spanned is derived**, if the tokens say what their kinds say. -/
theorem Spans.derives {before : Pos} {seg : List Token} {p : Phrase} (h : Spans before seg p)
    (hs : ∀ t ∈ seg, t.Shaped) : Derives before seg p := by
  induction h with
  | number hk => exact (hs _ List.mem_cons_self).derives_numberNode _ hk
  | @text before t hk =>
    obtain ⟨x, hx⟩ := (hs t List.mem_cons_self).exists_text (.inl hk)
    have hvalue : t.content.value = .str x := by
      rw [hx]
      rfl
    exact hvalue ▸ .text hk hx
  | truth hk => exact .truth hk
  | falsehood hk => exact .falsehood hk
  | nothing hk => exact .nothing hk
  | @name before t hk =>
    obtain ⟨x, hx⟩ := (hs t List.mem_cons_self).exists_text (.inr hk)
    exact Token.text_of_content hx ▸ .name hk hx
  | @call before t l r seg es hk hl hr args ih =>
    obtain ⟨x, hx⟩ := (hs t List.mem_cons_self).exists_text (.inr hk)
    exact Token.text_of_content hx ▸ .call hk hx hl hr (ih fun t ht => hs t (by simp [ht]))
  | group hl hr inner ih => exact .group hl hr (ih fun t ht => hs t (by simp [ht]))
  | @sign before t seg e hk operand ih =>
    have htext : t.text = "-" := (hs t List.mem_cons_self).text_eq (by rw [hk]; decide)
    rw [htext]
    exact .sign hk (ih fun t ht => hs t (List.mem_cons_of_mem _ ht))
  | negation hk operand ih =>
    exact .negation hk (ih fun t ht => hs t (List.mem_cons_of_mem _ ht))
  | @join before t seg seg' a b op left hk right ihl ihr =>
    have htext : t.text = op.symbol := by
      refine (hs t (by simp)).text_eq ?_
      rw [hk]
      cases op <;> decide
    rw [htext, op.joined_symbol]
    exact .join op (ihl fun t ht => hs t (by simp [ht])) hk (ihr fun t ht => hs t (by simp [ht]))
  | lift hl h ih => exact .lift hl (ih hs)
  | last h ih => exact .last (ih hs)
  | more first hc rest ihf ihr =>
    exact .more (ihf fun t ht => hs t (by simp [ht])) hc (ihr fun t ht => hs t (by simp [ht]))

/-- Whether tokens of this kind stand in expressions. -/
def TokenKind.inExpression : TokenKind → Bool
  | .number | .text | .trueWord | .falseWord | .noneWord | .identifier | .leftParen | .rightParen
  | .comma | .notWord | .orWord | .andWord | .equal | .different | .less | .greater | .lessEqual
  | .greaterEqual | .plus | .minus | .star | .slash | .percent | .doubleStar => true
  | _ => false

theorem Operator.inExpression_kind (op : Operator) : op.kind.inExpression = true := by
  cases op <;> rfl

namespace Spans
open Derives (firstLevel Begins)

variable {before : Pos} {seg : List Token}

/-- A phrase has a first token, and it is one that its level can begin with. -/
theorem exists_head {p : Phrase} (h : Spans before seg p) :
    ∃ t ts, seg = t :: ts ∧ Begins (firstLevel p) t.kind := by
  induction h with
  | number hk | text hk | truth hk | falsehood hk | nothing hk | name hk | call hk =>
    exact ⟨_, _, rfl, .inl (by rw [hk]; decide)⟩
  | group hl => exact ⟨_, _, rfl, .inl (by rw [hl]; decide)⟩
  | sign hk => exact ⟨_, _, rfl, .inr (.inl ⟨hk, Nat.le_refl _⟩)⟩
  | negation hk => exact ⟨_, _, rfl, .inr (.inr ⟨hk, Nat.le_refl _⟩)⟩
  | join op left hk right ihl ihr =>
    obtain ⟨t, ts, rfl, hb⟩ := ihl
    refine ⟨t, _, rfl, hb.mono ?_⟩
    show op.level.rank ≤ op.level.leftSide.rank
    cases op <;> decide
  | lift hl h ih =>
    obtain ⟨t, ts, rfl, hb⟩ := ih
    refine ⟨t, ts, rfl, hb.mono ?_⟩
    rw [firstLevel, firstLevel, Level.rank_next hl]
    exact Nat.le_succ _
  | last h ih => exact ih
  | more first hc rest ihf ihr =>
    obtain ⟨t, ts, rfl, hb⟩ := ihf
    exact ⟨t, _, rfl, hb⟩

theorem length_pos {p : Phrase} (h : Spans before seg p) : 0 < seg.length := by
  obtain ⟨t, ts, rfl, -⟩ := h.exists_head
  exact Nat.succ_pos _

/-- An expression of a level is one of every weaker level. -/
theorem weaken {l m : Level} {e : Node} (hm : m.rank ≤ l.rank)
    (h : Spans before seg (.expression l e)) : Spans before seg (.expression m e) :=
  Level.of_rank_le (P := fun l => Spans before seg (.expression l e)) (fun _ => .lift) h hm

/-- Neither keywords of statements nor terminators, braces or the end stand in a phrase. -/
theorem inExpression {p : Phrase} (h : Spans before seg p) :
    ∀ t ∈ seg, t.kind.inExpression = true := by
  have hkind : ∀ {t : Token} {k : TokenKind}, t.kind = k → k.inExpression = true →
      t.kind.inExpression = true := fun hk hin => hk ▸ hin
  induction h with
  | number hk | text hk | truth hk | falsehood hk | nothing hk | name hk =>
    exact List.forall_mem_singleton.mpr (hkind hk rfl)
  | call hk hl hr args ih =>
    simp only [List.forall_mem_cons, List.forall_mem_append]
    exact ⟨hkind hk rfl, hkind hl rfl, ih, hkind hr rfl, List.forall_mem_nil _⟩
  | group hl hr inner ih =>
    simp only [List.forall_mem_cons, List.forall_mem_append]
    exact ⟨hkind hl rfl, ih, hkind hr rfl, List.forall_mem_nil _⟩
  | sign hk operand ih | negation hk operand ih => exact List.forall_mem_cons.mpr ⟨hkind hk rfl, ih⟩
  | join op left hk right ihl ihr =>
    simp only [List.forall_mem_cons, List.forall_mem_append]
    exact ⟨ihl, hkind hk op.inExpression_kind, ihr⟩
  | lift hl h ih => exact ih
  | last h ih => exact ih
  | more first hc rest ihf ihr =>
    simp only [List.forall_mem_cons, List.forall_mem_append]
    exact ⟨ihf, hkind hc rfl, ihr⟩

/-- An expression in which no call is exposed has a place, unless it is a call itself. -/
theorem pos?_isSome {p : Phrase} (h : Spans before seg p) :
    ∀ l e, p = .expression l e → e.exposesCall = false → e.isCall = false → e.pos?.isSome := by
  induction h with
  | @number before t hk =>
    rintro l e ⟨⟩ - -
    unfold numberNode
    split <;> rfl
  | text | truth | falsehood | nothing | name =>
    rintro l e ⟨⟩ - -
    rfl
  | call =>
    rintro l e ⟨⟩ - hcall
    cases hcall
  | group hl hr inner ih =>
    rintro l e ⟨⟩
    exact ih _ _ rfl
  | sign hk operand ih | negation hk operand ih =>
    rintro l e ⟨⟩ hexp -
    simp only [Node.exposesCall, Bool.or_eq_false_iff] at hexp
    rw [Node.pos?]
    exact ih _ _ rfl hexp.2 hexp.1
  | join op left hk right ihl ihr =>
    rintro l e ⟨⟩ hexp -
    rw [Level.exposesCall_joined] at hexp
    simp only [Bool.or_eq_false_iff] at hexp
    rw [Level.pos?_joined]
    exact ihl _ _ rfl hexp.1.2 hexp.1.1
  | lift hl h ih =>
    rintro l e ⟨⟩
    exact ih _ _ rfl
  | last | more =>
    rintro l e ⟨⟩

end Spans

/-! ## Declared variables -/

/-- **Declared variables, by the kinds of tokens**: behind a token at the place `before`, the given
tokens declare variables of a type, which commas divide; `isBare` says whether the last one is not
initialised. -/
inductive Introduces (type : String) (isMutable : Bool) :
    (before : Pos) → List Token → (isBare : Bool) → List Node → Prop
  /-- A variable with its value. -/
  | initialised {before : Pos} {t a : Token} {seg : List Token} {e : Node}
      (hk : t.kind = .identifier) (ha : a.kind = .assign)
      (value : Spans a.pos seg (.expression .disjunction e)) :
      Introduces type isMutable before (t :: a :: seg) false
        [.declaration t.text type isMutable e]
  /-- A variable without a value. -/
  | bare {before : Pos} {t : Token} (hk : t.kind = .identifier) :
      Introduces type isMutable before [t] true
        [.declaration t.text type isMutable (.empty before)]
  /-- A variable with its value, a comma, and further variables. -/
  | initialisedMore {before : Pos} {t a c : Token} {seg seg' : List Token} {e : Node}
      {isBare : Bool} {ds : List Node} (hk : t.kind = .identifier) (ha : a.kind = .assign)
      (value : Spans a.pos seg (.expression .disjunction e)) (hcomma : c.kind = .comma)
      (more : Introduces type isMutable c.pos seg' isBare ds) :
      Introduces type isMutable before (t :: a :: (seg ++ c :: seg')) isBare
        (.declaration t.text type isMutable e :: ds)
  /-- A variable without a value, a comma, and further variables. -/
  | bareMore {before : Pos} {t c : Token} {seg' : List Token} {isBare : Bool} {ds : List Node}
      (hk : t.kind = .identifier) (hcomma : c.kind = .comma)
      (more : Introduces type isMutable c.pos seg' isBare ds) :
      Introduces type isMutable before (t :: c :: seg') isBare
        (.declaration t.text type isMutable (.empty before) :: ds)

theorem Declares.introduces {type : String} {isMutable isBare : Bool} {before : Pos}
    {seg : List Token} {ds : List Node} (h : Declares type isMutable before seg isBare ds)
    (hs : ∀ t ∈ seg, t.Shaped) : Introduces type isMutable before seg isBare ds := by
  induction h with
  | initialised hk hc ha value =>
    exact Token.text_of_content hc ▸ .initialised hk ha (value.spans fun t ht => hs t (by simp [ht]))
  | bare hk hc => exact Token.text_of_content hc ▸ .bare hk
  | initialisedMore hk hc ha value hcomma more ih =>
    exact Token.text_of_content hc ▸ .initialisedMore hk ha
      (value.spans fun t ht => hs t (by simp [ht])) hcomma (ih fun t ht => hs t (by simp [ht]))
  | bareMore hk hc hcomma more ih =>
    exact Token.text_of_content hc ▸ .bareMore hk hcomma (ih fun t ht => hs t (by simp [ht]))

/-- Beside what stands in expressions, only `=` stands between declared variables. -/
theorem Introduces.kind_of_mem {type : String} {isMutable isBare : Bool} {before : Pos}
    {seg : List Token} {ds : List Node} (h : Introduces type isMutable before seg isBare ds) :
    ∀ t ∈ seg, t.kind = .assign ∨ t.kind.inExpression = true := by
  have hkind : ∀ {t : Token} {k : TokenKind}, t.kind = k → k.inExpression = true →
      t.kind = .assign ∨ t.kind.inExpression = true := fun hk hin => .inr (hk ▸ hin)
  induction h with
  | initialised hk ha value =>
    simp only [List.forall_mem_cons]
    exact ⟨hkind hk rfl, .inl ha, fun t ht => .inr (value.inExpression t ht)⟩
  | bare hk => exact List.forall_mem_singleton.mpr (hkind hk rfl)
  | initialisedMore hk ha value hcomma more ih =>
    simp only [List.forall_mem_cons, List.forall_mem_append]
    exact ⟨hkind hk rfl, .inl ha, fun t ht => .inr (value.inExpression t ht), hkind hcomma rfl, ih⟩
  | bareMore hk hcomma more ih =>
    simp only [List.forall_mem_cons]
    exact ⟨hkind hk rfl, hkind hcomma rfl, ih⟩

theorem Introduces.ne_nil {type : String} {isMutable isBare : Bool} {before : Pos}
    {seg : List Token} {ds : List Node} (h : Introduces type isMutable before seg isBare ds) :
    seg ≠ [] := by
  cases h <;> exact List.cons_ne_nil _ _

/-! ## Statements -/

/-- **The grammar of statements, by the kinds of tokens**: inside the given scope and with the scopes
`σ` opened before, the given tokens make a clause, and the scopes behind them are `σ'`. -/
inductive Composes : (scope : ScopeId) → (σ : Scopes) → List Token → (σ' : Scopes) → Clause → Prop
  /-- A declaration. -/
  | declaration {scope : ScopeId} {σ : Scopes} {k t : Token} {seg : List Token} {isBare : Bool}
      {ds : List Node} (hk : k.kind = .varWord ∨ k.kind = .letWord)
      (ht : t.kind ∈ [TokenKind.intWord, .floatWord, .stringWord, .boolWord])
      (declared : Introduces t.text (decide (k.kind ≠ .letWord)) t.pos seg isBare ds) :
      Composes scope σ (k :: t :: seg) σ (.statement isBare ds)
  /-- A call. -/
  | call {scope : ScopeId} {σ : Scopes} {t l r : Token} {seg : List Token} {es : List Node}
      (hk : t.kind = .identifier) (hl : l.kind = .leftParen) (hr : r.kind = .rightParen)
      (args : Spans l.pos seg (.arguments es)) :
      Composes scope σ (t :: l :: (seg ++ [r])) σ (.statement false [.call t.text es])
  /-- An assignment. -/
  | assignment {scope : ScopeId} {σ : Scopes} {t a : Token} {seg : List Token} {e : Node}
      (hk : t.kind = .identifier) (ha : a.kind = .assign)
      (value : Spans a.pos seg (.expression .disjunction e)) :
      Composes scope σ (t :: a :: seg) σ (.statement false [.assignment t.text e])
  /-- A compound assignment. -/
  | update {scope : ScopeId} {σ : Scopes} {t a : Token} {op : Arithmetic} {seg : List Token}
      {e : Node} (hk : t.kind = .identifier) (ha : compoundAssignments.lookup a.kind = some op)
      (value : Spans a.pos seg (.expression .disjunction e)) :
      Composes scope σ (t :: a :: seg) σ
        (.statement false [.assignment t.text (.arithmetic op (.identifier t.text a.pos) e)])
  /-- A conditional statement that does nothing otherwise. -/
  | conditional {scope : ScopeId} {σ σ' : Scopes} {t r : Token} {seg : List Token}
      {bs : List (Node × Node)} (hk : t.kind = .ifWord)
      (branches : Composes scope σ (seg ++ [r]) σ' (.branches t.pos bs)) :
      Composes scope σ (t :: (seg ++ [r])) σ' (.statement false [.conditional bs (.empty r.pos)])
  /-- A conditional statement with a last block. -/
  | conditionalElse {scope : ScopeId} {σ σ₁ σ' : Scopes} {t o : Token} {seg seg' : List Token}
      {bs : List (Node × Node)} {b : Node} (hk : t.kind = .ifWord)
      (branches : Composes scope σ seg σ₁ (.branches t.pos bs)) (ho : o.kind = .elseWord)
      (otherwise : Composes scope σ₁ seg' σ' (.block b)) :
      Composes scope σ (t :: (seg ++ o :: seg')) σ'
        (.statement false [.conditional bs (.otherwise b)])
  /-- A loop with a condition. -/
  | loop {scope : ScopeId} {σ σ' : Scopes} {t : Token} {seg seg' : List Token} {c b : Node}
      (hk : t.kind = .whileWord) (condition : Spans t.pos seg (.expression .disjunction c))
      (block : Composes scope σ seg' σ' (.block b)) :
      Composes scope σ (t :: (seg ++ seg')) σ' (.statement false [.loop c b])
  /-- A loop without a condition. -/
  | endless {scope : ScopeId} {σ σ' : Scopes} {t : Token} {seg : List Token} {b : Node}
      (hk : t.kind = .loopWord) (block : Composes scope σ seg σ' (.block b)) :
      Composes scope σ (t :: seg) σ'
        (.statement false [.loop (.literal .bool (.bool true) t.pos) b])
  /-- `break`. -/
  | breakLoop {scope : ScopeId} {σ : Scopes} {t : Token} (hk : t.kind = .breakWord) :
      Composes scope σ [t] σ (.statement false [.breakLoop])
  /-- `continue`. -/
  | continueLoop {scope : ScopeId} {σ : Scopes} {t : Token} (hk : t.kind = .continueWord) :
      Composes scope σ [t] σ (.statement false [.continueLoop])
  /-- A condition and its block. -/
  | branch {scope : ScopeId} {σ σ' : Scopes} {before : Pos} {seg seg' : List Token} {c b : Node}
      (condition : Spans before seg (.expression .disjunction c))
      (block : Composes scope σ seg' σ' (.block b)) :
      Composes scope σ (seg ++ seg') σ' (.branches before [(c, b)])
  /-- A condition and its block, `elif`, and further ones. -/
  | branchMore {scope : ScopeId} {σ σ₁ σ' : Scopes} {before : Pos} {o : Token}
      {seg seg' seg'' : List Token} {c b : Node} {bs : List (Node × Node)}
      (condition : Spans before seg (.expression .disjunction c))
      (block : Composes scope σ seg' σ₁ (.block b)) (ho : o.kind = .elifWord)
      (more : Composes scope σ₁ seg'' σ' (.branches o.pos bs)) :
      Composes scope σ (seg ++ (seg' ++ o :: seg'')) σ' (.branches before ((c, b) :: bs))
  /-- A block has a scope of its own. -/
  | block {scope : ScopeId} {σ σ' : Scopes} {l r : Token} {seg : List Token} {ss : List Node}
      (hl : l.kind = .leftBrace) (hr : r.kind = .rightBrace)
      (body : Composes (σ.openIn scope).2 (σ.openIn scope).1 seg σ' (.body ss)) :
      Composes scope σ (l :: (seg ++ [r])) σ' (.block (.block ss (σ.openIn scope).2))
  /-- No statement. -/
  | nil {scope : ScopeId} {σ : Scopes} : Composes scope σ [] σ (.body [])
  /-- A semicolon. -/
  | semicolon {scope : ScopeId} {σ σ' : Scopes} {t : Token} {seg : List Token} {ss : List Node}
      (hk : t.kind = .semicolon) (rest : Composes scope σ seg σ' (.body ss)) :
      Composes scope σ (t :: seg) σ' (.body ss)
  /-- A statement, and what follows it. -/
  | cons {scope : ScopeId} {σ σ₁ σ' : Scopes} {seg seg' : List Token} {isBare : Bool}
      {ns ss : List Node} (first : Composes scope σ seg σ₁ (.statement isBare ns))
      (rest : Composes scope σ₁ seg' σ' (.body ss))
      (hbare : isBare = true → ∃ t ts, seg' = t :: ts ∧ t.kind = .semicolon) :
      Composes scope σ (seg ++ seg') σ' (.body (ns ++ ss))

/-- **What is formed is composed**, if the tokens say what their kinds say. -/
theorem Forms.composes {scope : ScopeId} {σ σ' : Scopes} {seg : List Token} {c : Clause}
    (h : Forms scope σ seg σ' c) (hs : ∀ t ∈ seg, t.Shaped) : Composes scope σ seg σ' c := by
  induction h with
  | declaration hk ht declared =>
    exact .declaration hk ht (declared.introduces fun t ht => hs t (by simp [ht]))
  | call hk hc hl hr args =>
    exact Token.text_of_content hc ▸ .call hk hl hr (args.spans fun t ht => hs t (by simp [ht]))
  | assignment hk hc ha value =>
    exact Token.text_of_content hc ▸ .assignment hk ha (value.spans fun t ht => hs t (by simp [ht]))
  | update hk hc ha value =>
    exact Token.text_of_content hc ▸ .update hk ha (value.spans fun t ht => hs t (by simp [ht]))
  | conditional hk branches ih =>
    exact .conditional hk (ih fun t ht => hs t (List.mem_cons_of_mem _ ht))
  | conditionalElse hk branches ho otherwise ihb iho =>
    exact .conditionalElse hk (ihb fun t ht => hs t (by simp [ht])) ho
      (iho fun t ht => hs t (by simp [ht]))
  | loop hk condition block ih =>
    exact .loop hk (condition.spans fun t ht => hs t (by simp [ht]))
      (ih fun t ht => hs t (by simp [ht]))
  | endless hk block ih => exact .endless hk (ih fun t ht => hs t (List.mem_cons_of_mem _ ht))
  | breakLoop hk => exact .breakLoop hk
  | continueLoop hk => exact .continueLoop hk
  | branch condition block ih =>
    exact .branch (condition.spans fun t ht => hs t (by simp [ht]))
      (ih fun t ht => hs t (by simp [ht]))
  | branchMore condition block ho more ihb ihm =>
    exact .branchMore (condition.spans fun t ht => hs t (by simp [ht]))
      (ihb fun t ht => hs t (by simp [ht])) ho (ihm fun t ht => hs t (by simp [ht]))
  | block hl hr body ih => exact .block hl hr (ih fun t ht => hs t (by simp [ht]))
  | nil => exact .nil
  | semicolon hk rest ih => exact .semicolon hk (ih fun t ht => hs t (List.mem_cons_of_mem _ ht))
  | cons first rest hbare ihf ihr =>
    exact .cons (ihf fun t ht => hs t (List.mem_append_left _ ht))
      (ihr fun t ht => hs t (List.mem_append_right _ ht)) hbare

namespace Composes
variable {scope : ScopeId} {σ σ' : Scopes} {seg : List Token}

/-- A statement begins with a token that statements begin with. -/
theorem exists_head {isBare : Bool} {ns : List Node}
    (h : Composes scope σ seg σ' (.statement isBare ns)) :
    ∃ t ts, seg = t :: ts ∧ t.kind.beginsStatement = true := by
  cases h with
  | declaration hk =>
    refine ⟨_, _, rfl, ?_⟩
    rcases hk with hk | hk <;> rw [hk] <;> rfl
  | call hk | assignment hk | update hk | conditional hk | conditionalElse hk | loop hk | endless hk
    | breakLoop hk | continueLoop hk => exact ⟨_, _, rfl, by rw [hk]; rfl⟩

/-- Conditions and their blocks have a last token. -/
theorem exists_concat {before : Pos} {bs : List (Node × Node)}
    (h : Composes scope σ seg σ' (.branches before bs)) : ∃ init r, seg = init ++ [r] := by
  have hne : seg ≠ [] := by
    cases h with
    | branch condition | branchMore condition =>
      obtain ⟨t, ts, rfl, -⟩ := condition.exists_head
      exact List.cons_ne_nil _ _
  exact ⟨seg.dropLast, seg.getLast hne, (List.dropLast_concat_getLast hne).symm⟩

/-- A block begins with an opening brace. -/
theorem exists_leftBrace {b : Node} (h : Composes scope σ seg σ' (.block b)) :
    ∃ t ts, seg = t :: ts ∧ t.kind = .leftBrace := by
  cases h with
  | block hl => exact ⟨_, _, rfl, hl⟩

/-- What is not a sequence of statements does not end with a semicolon. -/
theorem exists_last {c : Clause} (h : Composes scope σ seg σ' c) :
    c.isBody = false → ∃ init r, seg = init ++ [r] ∧ r.kind ≠ .semicolon := by
  -- it is enough to know the end of the last part
  have hend : ∀ {a b : List Token}, (∃ init r, b = init ++ [r] ∧ r.kind ≠ .semicolon) →
      ∃ init r, a ++ b = init ++ [r] ∧ r.kind ≠ .semicolon := by
    rintro a b ⟨init, r, rfl, hr⟩
    exact ⟨a ++ init, r, by rw [List.append_assoc], hr⟩
  have hplain : ∀ {b : List Token}, b ≠ [] → (∀ t ∈ b, t.kind ≠ .semicolon) →
      ∃ init r, b = init ++ [r] ∧ r.kind ≠ .semicolon := fun hne hb =>
    ⟨_, _, (List.dropLast_concat_getLast hne).symm, hb _ (List.getLast_mem hne)⟩
  have hvalue : ∀ {p : Pos} {b : List Token} {e : Node}, Spans p b (.expression .disjunction e) →
      ∃ init r, b = init ++ [r] ∧ r.kind ≠ .semicolon := fun hb =>
    hplain (List.ne_nil_of_length_pos hb.length_pos) fun t ht hk =>
      absurd (hb.inExpression t ht) (by rw [hk]; decide)
  induction h with
  | declaration hk ht declared =>
    refine fun _ => hend (a := [_, _]) (hplain declared.ne_nil fun t ht hk => ?_)
    rcases declared.kind_of_mem t ht with h | h <;> rw [hk] at h <;> cases h
  | call hk hl hr args => exact fun _ => ⟨_ :: _ :: _, _, rfl, by rw [hr]; decide⟩
  | assignment hk ha value | update hk ha value => exact fun _ => hend (a := [_, _]) (hvalue value)
  | conditional hk branches ih => exact fun _ => hend (a := [_]) (ih rfl)
  | conditionalElse hk branches ho otherwise ihb iho =>
    exact fun _ => hend (a := [_]) (hend (hend (a := [_]) (iho rfl)))
  | loop hk condition block ih => exact fun _ => hend (a := [_]) (hend (ih rfl))
  | endless hk block ih => exact fun _ => hend (a := [_]) (ih rfl)
  | breakLoop hk | continueLoop hk => exact fun _ => ⟨[], _, rfl, by rw [hk]; decide⟩
  | branch condition block ih => exact fun _ => hend (ih rfl)
  | branchMore condition block ho more ihb ihm =>
    exact fun _ => hend (hend (hend (a := [_]) (ihm rfl)))
  | block hl hr body ih => exact fun _ => ⟨_ :: _, _, rfl, by rw [hr]; decide⟩
  | nil | semicolon | cons =>
    intro hbody
    cases hbody

/-- Statements one after the other begin with what can follow a statement. -/
theorem followsStatement_head {ss : List Node} (h : Composes scope σ seg σ' (.body ss)) :
    ∀ t ∈ seg.head?, t.kind.followsStatement = true := by
  cases h with
  | nil =>
    intro t ht
    cases ht
  | semicolon hk =>
    intro t ht
    cases ht
    rw [hk]
    rfl
  | cons first =>
    obtain ⟨t, ts, rfl, hb⟩ := first.exists_head
    intro u hu
    cases hu
    exact TokenKind.followsStatement_of_begins hb

end Composes

end Scriptlet
