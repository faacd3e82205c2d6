import Scriptlet.Execution.Expression
import Scriptlet.Proofs.Sequences
import Scriptlet.Proofs.TypeRules

/-! # Evaluating expressions

The values of expressions without calls, from the values of their parts. Such an expression changes
nothing in the store if it has a value (`Run.state_of_eval`), and a fault of any part that is
evaluated on the way is its fault (`Run.Reaches.error`). Not all parts are: `and` and `or` leave
their right side out if the left one decides.
-/
namespace Scriptlet.Run

variable {i : ScopeId} {m m' : Machine} {l r o e n : Node} {a b v : Value} {f : Fault} {p : Pos}

/-! ## Evaluating a node from its parts -/

-- the equations of `eval` are made here, once for all that follows
attribute [local simp] eval

theorem eval_literal {kind : LiteralKind} (h : kind ≠ .plain) :
    eval i (.literal kind v p) m = .ok v m := by
  rw [eval]
  · rfl
  · exact h

theorem eval_identifier (x : String) (p : Pos) :
    eval i (.identifier x p) m = .ok ((m.scopes.get? i x).getD .absent) m := by
  rw [eval]
  rfl

theorem eval_arithmetic (op : Arithmetic) (hp : l.pos? = some p) :
    eval i (.arithmetic op l r) m =
      (do arithmetic op p (← eval i l) (← eval i r) : Run Value) m := by
  rw [eval, Node.pos, hp]
  rfl

theorem eval_comparison (op : Comparison) :
    eval i (.comparison op l r) m =
      (do ofExcept (op.apply (← eval i l) (← eval i r)) : Run Value) m := by
  rw [eval]

theorem eval_signed (op : Sign) :
    eval i (.signed op o) m = (do ofExcept (op.apply (← eval i o)) : Run Value) m := by
  rw [eval]

theorem eval_negation : eval i (.negation o) m = (do negation (← eval i o) : Run Value) m := by
  rw [eval]

theorem eval_logic_decided {op : Logic} (hl : eval i l m = .ok a m) (hd : decided? op a = some v) :
    eval i (.logic op l r) m = .ok v m := by
  rw [eval, EStateM.bind_of_ok hl, hd]
  rfl

theorem eval_logic_open {op : Logic} (hl : eval i l m = .ok a m) (hd : decided? op a = none) :
    eval i (.logic op l r) m = (do return joined op a (← eval i r) : Run Value) m := by
  rw [eval, EStateM.bind_of_ok hl, hd]

theorem eval_logic_error {op : Logic} (hl : eval i l m = .error f m') :
    eval i (.logic op l r) m = .error f m' := by
  rw [eval, EStateM.bind_of_error hl]

theorem ofExcept_eq_ok {α : Type} {x : Except Fault α} {a : α} (h : ofExcept x m = .ok a m') :
    x = .ok a ∧ m' = m := by
  cases x with
  | ok b =>
    cases h
    exact ⟨rfl, rfl⟩
  | error f => cases h

/-- Unless a divisor is zero, an operation is applied to its two values. -/
theorem arithmetic_eq (op : Arithmetic) (p : Pos) (a b : Value) (m : Machine) :
    (arithmetic op p a b m = ofExcept (op.apply a b) m ∧
        (op = .mod → b.equals (.int 0) = false)) ∨
      ∃ d, (d = .zeroDivision p ∨ d = .zeroModulo p) ∧
        arithmetic op p a b m = .error .stopped { m with reports := m.reports ++ [d] } := by
  cases op with
  | div =>
    rw [arithmetic]
    split
    · exact .inr ⟨_, .inl rfl, rfl⟩
    · exact .inl ⟨rfl, nofun⟩
  | mod =>
    rw [arithmetic]
    split
    · exact .inr ⟨_, .inr rfl, rfl⟩
    · rename_i hb
      exact .inl ⟨rfl, fun _ => Bool.eq_false_iff.mpr hb⟩
  | add | sub | mul | pow | other => exact .inl ⟨rfl, nofun⟩

theorem arithmetic_eq_ok {op : Arithmetic} (h : arithmetic op p a b m = .ok v m') :
    op.apply a b = .ok v ∧ m' = m := by
  rcases arithmetic_eq op p a b m with ⟨happly, -⟩ | ⟨d, -, hstop⟩
  · exact ofExcept_eq_ok (happly.symm.trans h)
  · cases hstop.symm.trans h

theorem negation_eq_ok (h : negation a m = .ok v m') : (∃ b, v = .bool b) ∧ m' = m := by
  cases a with
  | bool b =>
    cases h
    exact ⟨⟨_, rfl⟩, rfl⟩
  | absent | noneValue | int | float | complex | str | record | symbol => cases h

/-! ## Values and the store -/

/-- An expression without calls leaves the store as it is, if it has a value. -/
theorem state_of_eval : ∀ {e : Node} {v : Value} {m' : Machine}, e.IsExpression →
    eval i e m = .ok v m' → m' = m
  | .empty p, _, _, _, h => by
    cases h
    rfl
  | .literal kind v p, _, _, ⟨t, ht, _⟩, h => by
    rw [eval_literal (by rintro rfl; cases ht)] at h
    cases h
    rfl
  | .identifier x p, _, _, _, h => by
    rw [eval_identifier] at h
    cases h
    rfl
  | .signed op o, _, _, he, h => by
    rw [eval_signed] at h
    obtain ⟨a, m₁, ha, h₁⟩ := EStateM.bind_eq_ok.mp h
    rw [(ofExcept_eq_ok h₁).2, state_of_eval he.2 ha]
  | .negation o, _, _, he, h => by
    rw [eval_negation] at h
    obtain ⟨a, m₁, ha, h₁⟩ := EStateM.bind_eq_ok.mp h
    rw [(negation_eq_ok h₁).2, state_of_eval (e := o) he ha]
  | .logic op l r, _, _, he, h => by
    rw [eval] at h
    obtain ⟨a, m₁, ha, h₁⟩ := EStateM.bind_eq_ok.mp h
    cases state_of_eval he.2.1 ha
    cases hd : decided? op a with
    | some v =>
      rw [hd] at h₁
      cases h₁
      rfl
    | none =>
      rw [hd] at h₁
      obtain ⟨b, m₂, hb, h₂⟩ := EStateM.bind_eq_ok.mp h₁
      cases h₂
      exact state_of_eval he.2.2 hb
  | .comparison op l r, _, _, he, h => by
    rw [eval_comparison] at h
    obtain ⟨a, m₁, ha, h₁⟩ := EStateM.bind_eq_ok.mp h
    cases state_of_eval he.2.1 ha
    obtain ⟨b, m₂, hb, h₂⟩ := EStateM.bind_eq_ok.mp h₁
    rw [(ofExcept_eq_ok h₂).2, state_of_eval he.2.2 hb]
  | .arithmetic op l r, _, _, he, h => by
    obtain ⟨p, hp⟩ := he.2.1.exists_pos
    rw [eval_arithmetic op hp] at h
    obtain ⟨a, m₁, ha, h₁⟩ := EStateM.bind_eq_ok.mp h
    cases state_of_eval he.2.1 ha
    obtain ⟨b, m₂, hb, h₂⟩ := EStateM.bind_eq_ok.mp h₁
    rw [(arithmetic_eq_ok h₂).2, state_of_eval he.2.2 hb]

/-- The value of an operation comes from the values of its sides. -/
theorem eval_arithmetic_eq_ok {op : Arithmetic} (hl : l.IsExpression) (hr : r.IsExpression)
    (h : eval i (.arithmetic op l r) m = .ok v m') :
    ∃ a b, eval i l m = .ok a m ∧ eval i r m = .ok b m ∧ op.apply a b = .ok v := by
  obtain ⟨p, hp⟩ := hl.exists_pos
  rw [eval_arithmetic op hp] at h
  obtain ⟨a, m₁, ha, h₁⟩ := EStateM.bind_eq_ok.mp h
  cases state_of_eval hl ha
  obtain ⟨b, m₂, hb, h₂⟩ := EStateM.bind_eq_ok.mp h₁
  cases state_of_eval hr hb
  exact ⟨a, b, ha, hb, (arithmetic_eq_ok h₂).1⟩

theorem eval_signed_eq_ok {op : Sign} (ho : o.IsExpression)
    (h : eval i (.signed op o) m = .ok v m') :
    ∃ a, eval i o m = .ok a m ∧ op.apply a = .ok v := by
  rw [eval_signed] at h
  obtain ⟨a, m₁, ha, h₁⟩ := EStateM.bind_eq_ok.mp h
  cases state_of_eval ho ha
  exact ⟨a, ha, (ofExcept_eq_ok h₁).1⟩

/-! ## What is evaluated on the way -/

/-- Evaluating the first expression evaluates the second one on the way. -/
inductive Reaches (i : ScopeId) (m : Machine) : Node → Node → Prop
  | refl {e : Node} : Reaches i m e e
  | signed {op : Sign} {o n : Node} (h : Reaches i m o n) : Reaches i m (.signed op o) n
  | negation {o n : Node} (h : Reaches i m o n) : Reaches i m (.negation o) n
  | arithmeticLeft {op : Arithmetic} {l r n : Node} (h : Reaches i m l n) :
      Reaches i m (.arithmetic op l r) n
  | arithmeticRight {op : Arithmetic} {l r n : Node} {a : Value} (hl : eval i l m = .ok a m)
      (h : Reaches i m r n) : Reaches i m (.arithmetic op l r) n
  | comparisonLeft {op : Comparison} {l r n : Node} (h : Reaches i m l n) :
      Reaches i m (.comparison op l r) n
  | comparisonRight {op : Comparison} {l r n : Node} {a : Value} (hl : eval i l m = .ok a m)
      (h : Reaches i m r n) : Reaches i m (.comparison op l r) n
  | logicLeft {op : Logic} {l r n : Node} (h : Reaches i m l n) : Reaches i m (.logic op l r) n
  | logicRight {op : Logic} {l r n : Node} {a : Value} (hl : eval i l m = .ok a m)
      (hd : decided? op a = none) (h : Reaches i m r n) : Reaches i m (.logic op l r) n

/-- What is evaluated on the way to an expression without calls has none either. -/
theorem Reaches.isExpression (h : Reaches i m e n) (he : e.IsExpression) : n.IsExpression := by
  induction h with
  | refl => exact he
  | signed _ ih => exact ih he.2
  | negation _ ih => exact ih he
  | arithmeticLeft _ ih | comparisonLeft _ ih | logicLeft _ ih => exact ih he.2.1
  | arithmeticRight _ _ ih | comparisonRight _ _ ih | logicRight _ _ _ ih => exact ih he.2.2

/-- A fault that is met on the way is the fault of the whole expression. -/
theorem Reaches.error (h : Reaches i m e n) (he : e.IsExpression)
    (hn : eval i n m = .error f m') : eval i e m = .error f m' := by
  induction h with
  | refl => exact hn
  | signed _ ih => rw [eval_signed, EStateM.bind_of_error (ih he.2 hn)]
  | negation _ ih => rw [eval_negation, EStateM.bind_of_error (ih he hn)]
  | arithmeticLeft _ ih =>
    obtain ⟨p, hp⟩ := he.2.1.exists_pos
    rw [eval_arithmetic _ hp, EStateM.bind_of_error (ih he.2.1 hn)]
  | arithmeticRight ha _ ih =>
    obtain ⟨p, hp⟩ := he.2.1.exists_pos
    rw [eval_arithmetic _ hp, EStateM.bind_of_ok ha, EStateM.bind_of_error (ih he.2.2 hn)]
  | comparisonLeft _ ih => rw [eval_comparison, EStateM.bind_of_error (ih he.2.1 hn)]
  | comparisonRight ha _ ih =>
    rw [eval_comparison, EStateM.bind_of_ok ha, EStateM.bind_of_error (ih he.2.2 hn)]
  | logicLeft _ ih => rw [eval_logic_error (ih he.2.1 hn)]
  | logicRight ha hd _ ih =>
    rw [eval_logic_open ha hd, EStateM.bind_of_error (ih he.2.2 hn)]

end Scriptlet.Run
