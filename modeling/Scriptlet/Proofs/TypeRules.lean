import Scriptlet.Node
import Scriptlet.Proofs.NumberKinds

/-! # Types of expressions

Which expressions have a type, said without the checker: numbers of one type make an operation of
that type, truth values are joined and negated, and a comparison has two sides of one type. The
types of the variables come from the symbols in a scope (`Scopes.declaredType?`).

The checker does not look at every part of an expression, so its rules have gaps: `Vetted` asks
nothing of the parts that it passes over.
-/
namespace Scriptlet

/-- The names of the types that variables are declared with. -/
def typeNames : List String :=
  ["int", "float", "string", "bool"]

/-- The types of numbers. -/
def isNumberType (t : String) : Bool :=
  t = "int" || t = "float"

theorem mem_typeNames_of_isNumberType {t : String} (h : isNumberType t = true) : t ∈ typeNames := by
  simp only [isNumberType, Bool.or_eq_true, decide_eq_true_eq] at h
  rcases h with rfl | rfl <;> decide

/-- Whether a value is of the type with this name. -/
def Value.isOfType (v : Value) (t : String) : Bool :=
  match v with
  | .int _ => t = "int"
  | .float _ => t = "float"
  | .str _ => t = "string"
  | .bool _ => t = "bool"
  | _ => false

/-- The type of a variable that was declared and has a value. -/
def Scopes.declaredType? (s : Scopes) (i : ScopeId) (x : String) : Option String :=
  match s.get? i x with
  | some (.symbol symbol) => if symbol.isNone then none else some symbol.typeName
  | _ => none

/-! ## Operators that exist -/

/-- Whether this is an operator of the language. -/
def Comparison.isKnown : Comparison → Bool
  | .other _ => false
  | _ => true

/-- Whether this is an operator of the language. -/
def Logic.isKnown : Logic → Bool
  | .other _ => false
  | _ => true

/-- The expressions without calls: the operators are those of the language, and a literal holds a
value of its kind. -/
def Node.IsExpression : Node → Prop
  | .empty _ | .identifier .. => True
  | .literal kind v _ => ∃ t, kind.typeName? = some t ∧ v.isOfType t = true
  | .signed op o => op.isKnown = true ∧ o.IsExpression
  | .negation o => o.IsExpression
  | .logic op l r => op.isKnown = true ∧ l.IsExpression ∧ r.IsExpression
  | .comparison op l r => op.isKnown = true ∧ l.IsExpression ∧ r.IsExpression
  | .arithmetic op l r => op.isKnown = true ∧ l.IsExpression ∧ r.IsExpression
  | _ => False

/-- The expressions of literals and variables with signs and arithmetic operators only. -/
def Node.IsArithmetic : Node → Prop
  | .empty _ | .identifier .. => True
  | .literal kind v _ => ∃ t, kind.typeName? = some t ∧ v.isOfType t = true
  | .signed op o => op.isKnown = true ∧ o.IsArithmetic
  | .arithmetic op l r => op.isKnown = true ∧ l.IsArithmetic ∧ r.IsArithmetic
  | _ => False

theorem Node.IsArithmetic.isExpression : ∀ {e : Node}, e.IsArithmetic → e.IsExpression
  | .empty _, h | .identifier .., h | .literal .., h => h
  | .signed .., h => ⟨h.1, h.2.isExpression⟩
  | .arithmetic .., h => ⟨h.1, h.2.1.isExpression, h.2.2.isExpression⟩

/-- Every expression has a place. -/
theorem Node.IsExpression.exists_pos : ∀ {e : Node}, e.IsExpression → ∃ p, e.pos? = some p
  | .empty p, _ | .identifier _ p, _ | .literal _ _ p, _ => ⟨p, rfl⟩
  | .signed _ o, h => exists_pos (e := o) h.2
  | .negation o, h => exists_pos (e := o) h
  | .logic _ l _, h | .comparison _ l _, h | .arithmetic _ l _, h => exists_pos (e := l) h.2.1

/-! ## Forms of nodes -/

/-- Whether the node is an arithmetic operation. -/
def Node.isOperation : Node → Bool
  | .arithmetic .. => true
  | _ => false

/-- Whether the node is an expression behind a sign. -/
def Node.isSigned : Node → Bool
  | .signed .. => true
  | _ => false

/-- Whether the node is an operation with `and` or `or`. -/
def Node.isLogic : Node → Bool
  | .logic .. => true
  | _ => false

/-- Whether the node is a comparison. -/
def Node.isComparison : Node → Bool
  | .comparison .. => true
  | _ => false

/-- Whether the node is a negation. -/
def Node.isNegation : Node → Bool
  | .negation _ => true
  | _ => false

/-! ## The type of an expression -/

/-- The expression is of the type, where `Γ` gives the types of the variables, as far as the checker
looks: an operation to the right of an arithmetic operator can be anything, and so can `and` and
`or` to the right of an equality. -/
inductive Vetted (Γ : String → Option String) : Node → String → Prop
  | literal {kind : LiteralKind} {v : Value} {p : Pos} {t : String}
      (hkind : kind.typeName? = some t) (hv : v.isOfType t = true) : Vetted Γ (.literal kind v p) t
  | identifier {x : String} {p : Pos} {t : String} (hx : Γ x = some t) (ht : t ∈ typeNames) :
      Vetted Γ (.identifier x p) t
  | signed {op : Sign} {o : Node} {t : String} (hop : op.isKnown = true)
      (ht : isNumberType t = true) (ho : Vetted Γ o t) : Vetted Γ (.signed op o) t
  | arithmetic {op : Arithmetic} {l r : Node} {t : String} (hop : op.isKnown = true)
      (ht : isNumberType t = true) (hl : Vetted Γ l t) (hr : Vetted Γ r t) :
      Vetted Γ (.arithmetic op l r) t
  | beforeOperation {op : Arithmetic} {l r : Node} {t : String} (hop : op.isKnown = true)
      (ht : isNumberType t = true) (hl : Vetted Γ l t) (hr : r.isOperation = true) :
      Vetted Γ (.arithmetic op l r) t
  | negation {o : Node} (ho : Vetted Γ o "bool") : Vetted Γ (.negation o) "bool"
  | logic {op : Logic} {l r : Node} (hop : op.isKnown = true) (hl : Vetted Γ l "bool")
      (hr : Vetted Γ r "bool") : Vetted Γ (.logic op l r) "bool"
  | comparison {op : Comparison} {l r : Node} {t : String} (hop : op.isKnown = true)
      (ht : op.isEquality = true ∨ t ≠ "bool") (hl : Vetted Γ l t) (hr : Vetted Γ r t) :
      Vetted Γ (.comparison op l r) "bool"
  | beforeLogic {op : Comparison} {l r : Node} (hop : op.isKnown = true)
      (heq : op.isEquality = true) (hl : Vetted Γ l "bool") (hr : r.isLogic = true) :
      Vetted Γ (.comparison op l r) "bool"

theorem Vetted.mem_typeNames {Γ : String → Option String} {e : Node} {t : String}
    (h : Vetted Γ e t) : t ∈ typeNames := by
  induction h with
  | @literal kind v p t hkind hv =>
    cases kind <;> cases hkind <;> decide
  | identifier _ ht => exact ht
  | signed _ ht | arithmetic _ ht | beforeOperation _ ht => exact mem_typeNames_of_isNumberType ht
  | negation | logic | comparison | beforeLogic => decide

end Scriptlet
