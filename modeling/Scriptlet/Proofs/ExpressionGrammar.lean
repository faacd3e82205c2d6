import Scriptlet.Proofs.Reader

/-! # The grammar of expressions

The rules by which a segment of tokens is an expression of some level, stated without a reader:

* a level with operators is a sequence of parts of the next level, joined from the left, except
  that a power has a power on its right;
* `not` stands before a negation, a minus sign before a signed expression;
* a part without operators is a literal, a name, a call or an expression in parentheses.

Every rule also says which node the segment is, with the places of its tokens. The literal `none`
has no place of its own and is placed where the token before it stands; so a derivation depends on
the tokens around it through that one place, and on nothing else (`Derives`).
-/
namespace Scriptlet

/-! ## Operators between two parts -/

/-- The operators that join two expressions. -/
inductive Operator where
  | or | and
  | equal | different
  | less | greater | lessEqual | greaterEqual
  | add | sub
  | mul | div | mod
  | pow
deriving DecidableEq, Repr

namespace Operator

/-- The kind of token that an operator is. -/
def kind : Operator → TokenKind
  | or => .orWord
  | and => .andWord
  | equal => .equal
  | different => .different
  | less => .less
  | greater => .greater
  | lessEqual => .lessEqual
  | greaterEqual => .greaterEqual
  | add => .plus
  | sub => .minus
  | mul => .star
  | div => .slash
  | mod => .percent
  | pow => .doubleStar

/-- The operator as it is written. -/
def symbol : Operator → String
  | or => "or"
  | and => "and"
  | equal => "=="
  | different => "!="
  | less => "<"
  | greater => ">"
  | lessEqual => "<="
  | greaterEqual => ">="
  | add => "+"
  | sub => "-"
  | mul => "*"
  | div => "/"
  | mod => "%"
  | pow => "**"

/-- The level that an operator belongs to. -/
def level : Operator → Level
  | or => .disjunction
  | and => .conjunction
  | equal | different => .equality
  | less | greater | lessEqual | greaterEqual => .comparison
  | add | sub => .sum
  | mul | div | mod => .product
  | pow => .power

/-- The node that an operator makes of its two sides. -/
def node : Operator → Node → Node → Node
  | or => .logic .or
  | and => .logic .and
  | equal => .comparison .equal
  | different => .comparison .different
  | less => .comparison .less
  | greater => .comparison .greater
  | lessEqual => .comparison .lessEqual
  | greaterEqual => .comparison .greaterEqual
  | add => .arithmetic .add
  | sub => .arithmetic .sub
  | mul => .arithmetic .mul
  | div => .arithmetic .div
  | mod => .arithmetic .mod
  | pow => .arithmetic .pow

theorem kind_mem_operators (op : Operator) : op.kind ∈ op.level.operators := by
  cases op <;> decide

theorem kind_ne_endOfFile (op : Operator) : op.kind ≠ .endOfFile := by
  cases op <;> decide

/-- Every operator token of a level is an operator of that level. -/
theorem exists_of_mem_operators {l : Level} {k : TokenKind} (h : k ∈ l.operators) :
    ∃ op : Operator, op.level = l ∧ op.kind = k := by
  have all : ∀ op : Operator, op.level = l → op.kind = k →
      ∃ op : Operator, op.level = l ∧ op.kind = k := fun op hl hk => ⟨op, hl, hk⟩
  cases l <;> simp only [Level.operators, List.mem_cons, List.not_mem_nil, or_false] at h
  case disjunction => exact all .or rfl h.symm
  case conjunction => exact all .and rfl h.symm
  case equality =>
    rcases h with rfl | rfl
    · exact all .equal rfl rfl
    · exact all .different rfl rfl
  case comparison =>
    rcases h with rfl | rfl | rfl | rfl
    · exact all .greater rfl rfl
    · exact all .less rfl rfl
    · exact all .greaterEqual rfl rfl
    · exact all .lessEqual rfl rfl
  case sum =>
    rcases h with rfl | rfl
    · exact all .add rfl rfl
    · exact all .sub rfl rfl
  case product =>
    rcases h with rfl | rfl | rfl
    · exact all .mul rfl rfl
    · exact all .div rfl rfl
    · exact all .mod rfl rfl
  case power => exact all .pow rfl h.symm

end Operator

/-! ## The order of the levels -/

namespace Level

/-- How strong the operators of a level are. -/
def rank : Level → Nat
  | disjunction => 0
  | conjunction => 1
  | negation => 2
  | equality => 3
  | comparison => 4
  | sum => 5
  | product => 6
  | sign => 7
  | power => 8
  | primitive => 9

/-- The level of the left side of an operator: powers do not stand on the left of powers. -/
def leftSide : Level → Level
  | power => primitive
  | l => l

theorem rank_le_nine (l : Level) : l.rank ≤ 9 := by
  cases l <;> decide

theorem rank_next {l : Level} (h : l ≠ .primitive) : l.next.rank = l.rank + 1 := by
  cases l with
  | primitive => exact absurd rfl h
  | _ => rfl

theorem eq_of_rank_eq {l m : Level} (h : l.rank = m.rank) : l = m := by
  revert h
  cases l <;> cases m <;> decide

/-- What holds of a level if it holds of the next one, holds of all weaker levels. -/
theorem of_rank_le {P : Level → Prop} (hnext : ∀ l : Level, l ≠ .primitive → P l.next → P l)
    {l : Level} (h : P l) : ∀ {m : Level}, m.rank ≤ l.rank → P m := by
  intro m hm
  obtain ⟨d, hd⟩ := Nat.exists_eq_add_of_le hm
  induction d generalizing m with
  | zero =>
    have : l = m := eq_of_rank_eq hd
    exact this ▸ h
  | succ d ih =>
    have hp : m ≠ .primitive := by
      rintro rfl
      have hl := l.rank_le_nine
      have hr : Level.primitive.rank = 9 := rfl
      omega
    have hn := rank_next hp
    exact hnext m hp (ih (by omega) (by omega))

end Level

/-- Whether a token of kind `k` that follows an expression of level `l` would be read as going on
with it. -/
def TokenKind.extendsLevel (l : Level) (k : TokenKind) : Prop :=
  k = .leftParen ∨ ∃ op : Operator, l.rank ≤ op.level.rank ∧ op.kind = k

namespace TokenKind

theorem extendsLevel_mono {l m : Level} {k : TokenKind} (h : l.rank ≤ m.rank)
    (hk : k.extendsLevel m) : k.extendsLevel l := by
  rcases hk with hp | ⟨op, hr, ho⟩
  · exact .inl hp
  · exact .inr ⟨op, Nat.le_trans h hr, ho⟩

/-- What is neither an operator nor an opening parenthesis goes on with no expression. -/
theorem not_extendsLevel {k : TokenKind} (hparen : k ≠ .leftParen)
    (hop : ∀ op : Operator, k ≠ op.kind) (l : Level) : ¬ k.extendsLevel l := by
  rintro (hk | ⟨op, -, hk⟩)
  · exact hparen hk
  · exact hop op hk.symm

theorem not_mem_operators {l : Level} {k : TokenKind} (h : ¬ k.extendsLevel l) :
    k ∉ l.operators := by
  intro hm
  obtain ⟨op, hl, hk⟩ := Operator.exists_of_mem_operators hm
  exact h (.inr ⟨op, Nat.le_of_eq (congrArg Level.rank hl.symm), hk⟩)

end TokenKind

/-- An operator does not go on with an expression of a stronger level than its own. -/
theorem Operator.not_extendsLevel {op : Operator} {l : Level} (h : op.level.rank < l.rank) :
    ¬ op.kind.extendsLevel l := by
  rintro (hp | ⟨op', hr, hk⟩)
  · revert hp
    cases op <;> decide
  · have he : op' = op := by
      revert hk
      cases op <;> cases op' <;> decide
    rw [he] at hr
    exact absurd hr (Nat.not_le.mpr h)

/-! ## The rules -/

/-- What a segment of tokens is read as. -/
inductive Phrase where
  /-- An expression of a level. -/
  | expression (level : Level) (node : Node)
  /-- The arguments of a call, without the parentheses. -/
  | arguments (nodes : List Node)

/-- **The grammar of expressions**: behind a token at the place `before`, the given tokens make a
phrase. -/
inductive Derives : (before : Pos) → List Token → Phrase → Prop
  /-- An integer literal. -/
  | integer {before : Pos} {t : Token} {n : Int} (hk : t.kind = .number) (hc : t.content = .int n) :
      Derives before [t] (.expression .primitive (.literal .int (.int n) t.pos))
  /-- A floating-point literal. -/
  | decimal {before : Pos} {t : Token} {x : Float} (hk : t.kind = .number)
      (hc : t.content = .float x) :
      Derives before [t] (.expression .primitive (.literal .float (.float x) t.pos))
  /-- A text literal. -/
  | text {before : Pos} {t : Token} {s : String} (hk : t.kind = .text) (hc : t.content = .text s) :
      Derives before [t] (.expression .primitive (.literal .string (.str s) t.pos))
  /-- `true`. -/
  | truth {before : Pos} {t : Token} (hk : t.kind = .trueWord) :
      Derives before [t] (.expression .primitive (.literal .bool (.bool true) t.pos))
  /-- `false`. -/
  | falsehood {before : Pos} {t : Token} (hk : t.kind = .falseWord) :
      Derives before [t] (.expression .primitive (.literal .bool (.bool false) t.pos))
  /-- `none`. -/
  | nothing {before : Pos} {t : Token} (hk : t.kind = .noneWord) :
      Derives before [t] (.expression .primitive (.empty before))
  /-- A name. -/
  | name {before : Pos} {t : Token} {x : String} (hk : t.kind = .identifier)
      (hc : t.content = .text x) :
      Derives before [t] (.expression .primitive (.identifier x t.pos))
  /-- A call. -/
  | call {before : Pos} {t l r : Token} {f : String} {seg : List Token} {es : List Node}
      (hk : t.kind = .identifier) (hc : t.content = .text f) (hl : l.kind = .leftParen)
      (hr : r.kind = .rightParen) (args : Derives l.pos seg (.arguments es)) :
      Derives before (t :: l :: (seg ++ [r])) (.expression .primitive (.call f es))
  /-- An expression in parentheses. -/
  | group {before : Pos} {l r : Token} {seg : List Token} {e : Node} (hl : l.kind = .leftParen)
      (hr : r.kind = .rightParen) (inner : Derives l.pos seg (.expression .disjunction e)) :
      Derives before (l :: (seg ++ [r])) (.expression .primitive e)
  /-- An expression behind a minus sign. -/
  | sign {before : Pos} {t : Token} {seg : List Token} {e : Node} (hk : t.kind = .minus)
      (operand : Derives t.pos seg (.expression .sign e)) :
      Derives before (t :: seg) (.expression .sign (.signed .minus e))
  /-- An expression behind `not`. -/
  | negation {before : Pos} {t : Token} {seg : List Token} {e : Node} (hk : t.kind = .notWord)
      (operand : Derives t.pos seg (.expression .negation e)) :
      Derives before (t :: seg) (.expression .negation (.negation e))
  /-- Two expressions and an operator between them. -/
  | join {before : Pos} {t : Token} {seg seg' : List Token} {a b : Node} (op : Operator)
      (left : Derives before seg (.expression op.level.leftSide a)) (hk : t.kind = op.kind)
      (right : Derives t.pos seg' (.expression op.level.rightSide b)) :
      Derives before (seg ++ t :: seg') (.expression op.level (op.node a b))
  /-- An expression of the next level. -/
  | lift {before : Pos} {seg : List Token} {l : Level} {e : Node} (hl : l ≠ .primitive)
      (h : Derives before seg (.expression l.next e)) : Derives before seg (.expression l e)
  /-- One argument. -/
  | last {before : Pos} {seg : List Token} {e : Node}
      (h : Derives before seg (.expression .disjunction e)) :
      Derives before seg (.arguments [e])
  /-- An argument, a comma, and further arguments. -/
  | more {before : Pos} {c : Token} {seg seg' : List Token} {e : Node} {es : List Node}
      (first : Derives before seg (.expression .disjunction e)) (hc : c.kind = .comma)
      (rest : Derives c.pos seg' (.arguments es)) :
      Derives before (seg ++ c :: seg') (.arguments (e :: es))

namespace Derives
variable {before : Pos} {seg : List Token} {e : Node}

/-- An expression of a level is one of every weaker level. -/
theorem weaken {l m : Level} (hm : m.rank ≤ l.rank) (h : Derives before seg (.expression l e)) :
    Derives before seg (.expression m e) :=
  Level.of_rank_le (P := fun l => Derives before seg (.expression l e)) (fun _ => .lift) h hm

/-- The kinds of tokens that an expression of a level can begin with. -/
def Begins (l : Level) (k : TokenKind) : Prop :=
  k ∈ [.number, .text, .trueWord, .falseWord, .noneWord, .identifier, .leftParen] ∨
    (k = .minus ∧ l.rank ≤ Level.sign.rank) ∨ (k = .notWord ∧ l.rank ≤ Level.negation.rank)

instance (l : Level) (k : TokenKind) : Decidable (Begins l k) :=
  inferInstanceAs (Decidable (_ ∨ _))

theorem Begins.mono {l m : Level} {k : TokenKind} (h : m.rank ≤ l.rank) (hk : Begins l k) :
    Begins m k := by
  rcases hk with h1 | ⟨h1, h2⟩ | ⟨h1, h2⟩
  · exact .inl h1
  · exact .inr (.inl ⟨h1, Nat.le_trans h h2⟩)
  · exact .inr (.inr ⟨h1, Nat.le_trans h h2⟩)

/-- The level that a phrase begins with: arguments begin as expressions of the weakest level do. -/
def firstLevel : Phrase → Level
  | .expression l _ => l
  | .arguments _ => .disjunction

theorem ne_nil {p : Phrase} (h : Derives before seg p) : seg ≠ [] := by
  induction h with
  | lift hl h ih => exact ih
  | last h ih => exact ih
  | join | more => exact List.append_ne_nil_of_right_ne_nil _ (List.cons_ne_nil _ _)
  | _ => exact List.cons_ne_nil _ _

end Derives

/-! ## Calls in places where none can stand

A node that is made of others takes the place of its first part, and a call has no place. So a call
is *exposed* where it is the first part of another node. -/

/-- Whether a node is a call. -/
def Node.isCall : Node → Bool
  | .call .. => true
  | _ => false

mutual

/-- Whether a call in a node stands behind a sign or `not`, to the left of an operator, or is all
that a variable is set to. -/
def Node.exposesCall : Node → Bool
  | .signed _ o | .negation o => o.isCall || o.exposesCall
  | .logic _ l r | .comparison _ l r | .arithmetic _ l r =>
    l.isCall || l.exposesCall || r.exposesCall
  | .assignment _ v | .declaration _ _ _ v => v.isCall || v.exposesCall
  | .call _ args => Node.exposesCallAny args
  | .otherwise b => b.exposesCall
  | .conditional branches o => Node.exposesCallBranches branches || o.exposesCall
  | .loop c b => c.exposesCall || b.exposesCall
  | .block ss _ | .program ss _ => Node.exposesCallAny ss
  | _ => false

/-- Whether a call is exposed in one of a list of nodes. -/
def Node.exposesCallAny : List Node → Bool
  | [] => false
  | n :: rest => n.exposesCall || Node.exposesCallAny rest

/-- Whether a call is exposed in one of a list of conditions and blocks. -/
def Node.exposesCallBranches : List (Node × Node) → Bool
  | [] => false
  | (c, b) :: rest => c.exposesCall || b.exposesCall || Node.exposesCallBranches rest

end

namespace Operator
variable (op : Operator) (a b : Node)

theorem isCall_node : (op.node a b).isCall = false := by
  cases op <;> rfl

theorem exposesCall_node :
    (op.node a b).exposesCall = (a.isCall || a.exposesCall || b.exposesCall) := by
  cases op <;> simp only [node, Node.exposesCall]

end Operator

end Scriptlet
