import Scriptlet.Proofs.Evaluation

/-! # Evaluating what the checker has looked at

What the checker has looked at has a type up to the parts that it passes over (`Vetted`). It is
evaluated here in a store that holds values of the types of the variables (`Machine.Holds`). What
can go wrong comes from two sides: from the gaps, where anything can stand, and from powers, whose
exponent no type sees. A negative exponent leads from the integers to the floating-point numbers and
a fractional one on to the complex numbers, which have neither order nor remainder.

* What passes as a truth value gives one, whatever stands in the gaps (`Run.bool_of_vetted`).
* If the gaps fit, a fault is about the kinds of values exactly where a remainder or an order is
  asked of a complex number (`Run.ofKinds_iff_meetsComplex`).
* Integers stay integers exactly if the operations in the gaps give integers and no exponent is
  negative (`Run.int_iff_keepsInts`), for no operation leads back to the integers.
-/
namespace Scriptlet

/-- The values that an expression of a type can have. Powers may leave the type, but not the
numbers. -/
def Value.Fits (v : Value) (t : String) : Prop :=
  if isNumberType t then ∃ a : Number, v = a.value else v.isOfType t = true

namespace Value
variable {v : Value} {t : String}

theorem fits_of_isOfType (h : v.isOfType t = true) : v.Fits t := by
  rw [Fits]
  split
  · rename_i ht
    simp only [isNumberType, Bool.or_eq_true, decide_eq_true_eq] at ht
    cases v with
    | int n => exact ⟨.int n, rfl⟩
    | float x => exact ⟨.float x, rfl⟩
    | str s =>
      rw [decide_eq_true_eq.mp h] at ht
      exact absurd ht (by decide)
    | bool b =>
      rw [decide_eq_true_eq.mp h] at ht
      exact absurd ht (by decide)
    | absent | noneValue | complex | record | symbol => cases h
  · exact h

theorem Fits.number (h : v.Fits t) (ht : isNumberType t = true) : ∃ a : Number, v = a.value := by
  rwa [Fits, if_pos ht] at h

theorem fits_number (a : Number) (ht : isNumberType t = true) : a.value.Fits t := by
  rw [Fits, if_pos ht]
  exact ⟨a, rfl⟩

theorem Fits.bool (h : v.Fits "bool") : ∃ b, v = .bool b := by
  rw [Fits, if_neg (by decide)] at h
  cases v with
  | bool b => exact ⟨b, rfl⟩
  | int | float | str => simp [isOfType] at h
  | absent | noneValue | complex | record | symbol => cases h

theorem Fits.string (h : v.Fits "string") : ∃ s, v = .str s := by
  rw [Fits, if_neg (by decide)] at h
  cases v with
  | str s => exact ⟨s, rfl⟩
  | int | float | bool => simp [isOfType] at h
  | absent | noneValue | complex | record | symbol => cases h

theorem fits_bool (b : Bool) : (Value.bool b).Fits "bool" :=
  fits_of_isOfType (by simp [isOfType])

end Value

/-- The store has a value of its type for every variable that has one. -/
def Machine.Holds (m : Machine) (i : ScopeId) (Γ : String → Option String) : Prop :=
  ∀ x t, Γ x = some t → t ∈ typeNames → ∃ v, m.scopes.get? i x = some v ∧ v.isOfType t = true

namespace Run
variable {i : ScopeId} {m m' : Machine} {l r o e n : Node} {a b v : Value} {f : Fault} {p : Pos}
variable {Γ : String → Option String} {t : String}

/-! ## Truth values -/

/-- What `and` and `or` decide, or leave to their right side, is a truth value. -/
theorem decided_joined {op : Logic} (hop : op.isKnown = true) (x : Bool) :
    (∀ v, decided? op (.bool x) = some v → ∃ c, v = .bool c) ∧
      ∀ y, ∃ c, joined op (.bool x) (.bool y) = .bool c := by
  cases op with
  | and => cases x <;> exact ⟨by rintro v ⟨⟩ <;> exact ⟨_, rfl⟩, fun y => ⟨_, rfl⟩⟩
  | or => cases x <;> exact ⟨by rintro v ⟨⟩ <;> exact ⟨_, rfl⟩, fun y => ⟨_, rfl⟩⟩
  | other => cases hop

/-- A comparison gives a truth value, whatever it compares. -/
theorem bool_of_comparison {op : Comparison} (hop : op.isKnown = true)
    (hv : eval i (.comparison op l r) m = .ok v m') : ∃ c, v = .bool c := by
  rw [eval_comparison] at hv
  obtain ⟨a, m₁, -, hv₁⟩ := EStateM.bind_eq_ok.mp hv
  obtain ⟨b, m₂, -, hv₂⟩ := EStateM.bind_eq_ok.mp hv₁
  have happly := (ofExcept_eq_ok hv₂).1
  cases op with
  | equal | different =>
    cases happly
    exact ⟨_, rfl⟩
  | less | greater | lessEqual | greaterEqual => exact Comparison.bool_of_order happly
  | other => cases hop

/-- **What passes as a truth value gives one**, if it gives anything. -/
theorem bool_of_vetted (h : Vetted Γ e "bool") (he : e.IsExpression) (hm : m.Holds i Γ)
    (hv : eval i e m = .ok v m') : ∃ b, v = .bool b := by
  generalize hbool : "bool" = t at h
  induction h generalizing v m' with
  | @literal kind w p t hkind hw =>
    subst hbool
    rw [eval_literal (by rintro rfl; cases hkind)] at hv
    cases hv
    exact (Value.fits_of_isOfType hw).bool
  | @identifier x p t hx ht =>
    subst hbool
    obtain ⟨w, hw, htype⟩ := hm x "bool" hx ht
    rw [eval_identifier, hw] at hv
    cases hv
    exact (Value.fits_of_isOfType htype).bool
  | signed _ ht | arithmetic _ ht | beforeOperation _ ht =>
    subst hbool
    exact absurd ht (by decide)
  | negation =>
    rw [eval_negation] at hv
    obtain ⟨a, m₁, -, hv₁⟩ := EStateM.bind_eq_ok.mp hv
    exact (negation_eq_ok hv₁).1
  | @logic op l r hop hl hr ihl ihr =>
    rw [eval] at hv
    obtain ⟨a, m₁, ha, hv₁⟩ := EStateM.bind_eq_ok.mp hv
    cases state_of_eval he.2.1 ha
    obtain ⟨x, rfl⟩ := ihl he.2.1 ha rfl
    obtain ⟨hdecided, hjoined⟩ := decided_joined hop x
    cases hd : decided? op (.bool x) with
    | some w =>
      rw [hd] at hv₁
      cases hv₁
      exact hdecided _ hd
    | none =>
      rw [hd] at hv₁
      obtain ⟨b, m₂, hb, hv₂⟩ := EStateM.bind_eq_ok.mp hv₁
      obtain ⟨y, rfl⟩ := ihr he.2.2 hb rfl
      cases hv₂
      exact hjoined y
  | comparison hop => exact bool_of_comparison hop hv
  | beforeLogic hop => exact bool_of_comparison hop hv

/-! ## Faults about kinds -/

/-- A remainder or an order is asked of a complex number. -/
def MeetsComplex (i : ScopeId) (m : Machine) (n : Node) : Prop :=
  ∃ (l r : Node) (a b : Number), eval i l m = .ok a.value m ∧ eval i r m = .ok b.value m ∧
    (a.isComplex = true ∨ b.isComplex = true) ∧
    ((n = .arithmetic .mod l r ∧ b.value.equals (.int 0) = false) ∨
      ∃ op, op.isEquality = false ∧ n = .comparison op l r)

theorem eval_comparison_ok (op : Comparison) (hl : eval i l m = .ok a m)
    (hr : eval i r m = .ok b m) :
    eval i (.comparison op l r) m = ofExcept (op.apply a b) m := by
  rw [eval_comparison, EStateM.bind_of_ok hl, EStateM.bind_of_ok hr]

theorem apply_of_order {op : Comparison} (hop : op.isKnown = true) (h : op.isEquality = false)
    (a b : Value) : op.apply a b = op.order a b := by
  cases op with
  | less | greater | lessEqual | greaterEqual => rfl
  | equal | different => cases h
  | other => cases hop

/-- Where a remainder or an order is asked of a complex number, the fault is about kinds. -/
theorem MeetsComplex.error (h : MeetsComplex i m n) (hn : n.IsExpression) :
    ∃ f, eval i n m = .error f m ∧ f.isOfKinds = true := by
  obtain ⟨l, r, a, b, hl, hr, hcomplex, ⟨rfl, hzero⟩ | ⟨op, heq, rfl⟩⟩ := h
  · obtain ⟨f, hf, hkinds⟩ :=
      Arithmetic.apply_mod_of_complex a.number?_value b.number?_value hcomplex
    obtain ⟨p, hp⟩ := hn.2.1.exists_pos
    refine ⟨f, ?_, hkinds⟩
    rw [eval_arithmetic _ hp, EStateM.bind_of_ok hl, EStateM.bind_of_ok hr, arithmetic, hzero, hf]
    rfl
  · obtain ⟨f, hf, hkinds⟩ := op.order_of_complex hcomplex
    refine ⟨f, ?_, hkinds⟩
    rw [eval_comparison_ok op hl hr, apply_of_order hn.1 heq, hf]
    rfl

/-- The part that the checker passes over fits after all: its value does, and its fault is not about
kinds. -/
def FitsGap (i : ScopeId) (m : Machine) (n : Node) (fits : Value → Prop) : Prop :=
  match eval i n m with
  | .ok v _ => fits v
  | .error f _ => f.isOfKinds = false

/-- The parts that the checker passes over fit, where they are evaluated: an operation to the right
of an arithmetic operator gives a number, and `and` and `or` to the right of an equality something
that can be compared, which all values can. -/
structure GapsFit (i : ScopeId) (m : Machine) (e : Node) : Prop where
  operation : ∀ op l r, Reaches i m e (.arithmetic op l r) → r.isOperation = true →
    FitsGap i m r fun v => ∃ a : Number, v = a.value
  logic : ∀ op l r, Reaches i m e (.comparison op l r) → op.isEquality = true → r.isLogic = true →
    FitsGap i m r fun _ => True

theorem GapsFit.of_reaches (h : GapsFit i m e) (hreach : ∀ k, Reaches i m n k → Reaches i m e k) :
    GapsFit i m n :=
  ⟨fun op l r hn => h.operation op l r (hreach _ hn), fun op l r hn => h.logic op l r (hreach _ hn)⟩

/-- How the evaluation of an expression of type `t` can end: with a value that fits, with a fault
that is not about kinds, or where a remainder or an order is asked of a complex number. -/
inductive Outcome (i : ScopeId) (m : Machine) (e : Node) (t : String) : Prop
  | value {v : Value} (h : eval i e m = .ok v m) (hv : v.Fits t)
  | fault {f : Fault} {m' : Machine} (h : eval i e m = .error f m') (hf : f.isOfKinds = false)
  | complex {n : Node} {f : Fault} (h : eval i e m = .error f m) (hf : f.isOfKinds = true)
      (hn : Reaches i m e n) (hc : MeetsComplex i m n)

/-- An expression ends as the part that is evaluated next in it, unless that part has a value. -/
theorem Outcome.lift {u : String} (hn : Outcome i m n u) (he : e.IsExpression)
    (hreach : ∀ k, Reaches i m n k → Reaches i m e k)
    (hvalue : ∀ v, eval i n m = .ok v m → v.Fits u → Outcome i m e t) : Outcome i m e t := by
  cases hn with
  | value h hv => exact hvalue _ h hv
  | fault h hf => exact .fault ((hreach n .refl).error he h) hf
  | complex h hf hk hc => exact .complex ((hreach n .refl).error he h) hf (hreach _ hk) hc

theorem MeetsComplex.outcome (h : MeetsComplex i m e) (he : e.IsExpression) : Outcome i m e t := by
  obtain ⟨f, hf, hkinds⟩ := h.error he
  exact .complex hf hkinds .refl h

/-- An operation on two numbers. -/
theorem outcome_arithmetic {op : Arithmetic} (ht : isNumberType t = true)
    (he : (Node.arithmetic op l r).IsExpression) {a b : Number} (hl : eval i l m = .ok a.value m)
    (hr : eval i r m = .ok b.value m) : Outcome i m (.arithmetic op l r) t := by
  obtain ⟨p, hp⟩ := he.2.1.exists_pos
  have heval : eval i (.arithmetic op l r) m = arithmetic op p a.value b.value m := by
    rw [eval_arithmetic op hp, EStateM.bind_of_ok hl, EStateM.bind_of_ok hr]
  rcases arithmetic_eq op p a.value b.value m with ⟨happly, hzero⟩ | ⟨d, -, hstop⟩
  · rw [happly] at heval
    by_cases hmod : op = .mod → a.isComplex = false ∧ b.isComplex = false
    · have hgives := Arithmetic.apply_gives a.number?_value b.number?_value he.1 hmod
      cases hresult : op.apply a.value b.value with
      | ok v =>
        rw [hresult] at hgives heval
        obtain ⟨c, rfl, -⟩ := hgives
        exact .value heval (Value.fits_number c ht)
      | error f =>
        rw [hresult] at hgives heval
        exact .fault heval hgives
    · obtain ⟨rfl, hcomplex⟩ := Classical.not_imp.mp hmod
      refine MeetsComplex.outcome ⟨l, r, a, b, hl, hr, ?_, .inl ⟨rfl, hzero rfl⟩⟩ he
      exact Number.isComplex_or_of_not hcomplex
  · exact .fault (heval.trans hstop) rfl

/-- An operation whose left side has a value ends as its right side does, or has a value. -/
theorem outcome_sides {op : Arithmetic} (ht : isNumberType t = true)
    (he : (Node.arithmetic op l r).IsExpression) (hv : eval i l m = .ok v m) (hfits : v.Fits t)
    (hright : Outcome i m r t) : Outcome i m (.arithmetic op l r) t := by
  obtain ⟨a, rfl⟩ := hfits.number ht
  refine hright.lift he (fun _ => .arithmeticRight hv) fun w hw hfits => ?_
  obtain ⟨b, rfl⟩ := hfits.number ht
  exact outcome_arithmetic ht he hv hw

/-- A sign before a number. -/
theorem outcome_signed {op : Sign} (hop : op.isKnown = true) (ht : isNumberType t = true)
    {a : Number} (ho : eval i o m = .ok a.value m) : Outcome i m (.signed op o) t := by
  obtain ⟨c, hc⟩ := Sign.apply_value hop a
  have heval : eval i (.signed op o) m = .ok c.value m := by
    rw [eval_signed, EStateM.bind_of_ok ho, hc]
    rfl
  exact .value heval (Value.fits_number c ht)

/-- The order of two numbers or of two texts. -/
theorem outcome_order {op : Comparison} (he : (Node.comparison op l r).IsExpression)
    (heq : op.isEquality = false) (ht : t ∈ typeNames) (hbool : t ≠ "bool") (ha : a.Fits t)
    (hb : b.Fits t) (hl : eval i l m = .ok a m) (hr : eval i r m = .ok b m) :
    Outcome i m (.comparison op l r) "bool" := by
  have heval := eval_comparison_ok op hl hr
  rw [apply_of_order he.1 heq] at heval
  cases hnumber : isNumberType t with
  | true =>
    obtain ⟨x, rfl⟩ := ha.number hnumber
    obtain ⟨y, rfl⟩ := hb.number hnumber
    by_cases hreal : x.isComplex = false ∧ y.isComplex = false
    · obtain ⟨c, hc⟩ := op.order_of_real hreal.1 hreal.2
      rw [hc] at heval
      exact .value heval (Value.fits_bool c)
    · refine MeetsComplex.outcome ⟨l, r, x, y, hl, hr, ?_, .inr ⟨op, heq, rfl⟩⟩ he
      exact Number.isComplex_or_of_not hreal
  | false =>
    -- of the types that are no number types, texts have an order and truth values have none
    have hstring : t = "string" := by
      simp only [typeNames, List.mem_cons, List.not_mem_nil, or_false] at ht
      simp only [isNumberType, Bool.or_eq_false_iff, decide_eq_false_iff_not] at hnumber
      rcases ht with ht | ht | ht | ht
      · exact absurd ht hnumber.1
      · exact absurd ht hnumber.2
      · exact ht
      · exact absurd ht hbool
    subst hstring
    obtain ⟨x, rfl⟩ := ha.string
    obtain ⟨y, rfl⟩ := hb.string
    exact .value heval (Value.fits_bool _)

theorem outcome_equality {op : Comparison} (heq : op.isEquality = true)
    (hl : eval i l m = .ok a m) (hr : eval i r m = .ok b m) :
    Outcome i m (.comparison op l r) "bool" := by
  have heval := eval_comparison_ok op hl hr
  cases op with
  | equal | different => exact .value heval (Value.fits_bool _)
  | less | greater | lessEqual | greaterEqual | other => cases heq

/-- The value of a part that the checker passes over, or its fault. -/
theorem FitsGap.outcome {fits : Value → Prop} (h : FitsGap i m n fits) (hn : n.IsExpression)
    (hfits : ∀ v, fits v → v.Fits t) : Outcome i m n t := by
  rw [FitsGap] at h
  cases heval : eval i n m with
  | ok v m' =>
    cases state_of_eval hn heval
    rw [heval] at h
    exact .value heval (hfits v h)
  | error f m' =>
    rw [heval] at h
    exact .fault heval h

/-- **What the checker has looked at**, if the gaps fit, has a value of its type or meets a fault;
the fault is about the kinds of values only where a remainder or an order is asked of a complex
number. -/
theorem outcome_of_vetted (h : Vetted Γ e t) (he : e.IsExpression) (hm : m.Holds i Γ)
    (hgaps : GapsFit i m e) : Outcome i m e t := by
  induction h with
  | @literal kind v p t hkind hv =>
    exact .value (eval_literal (by rintro rfl; cases hkind)) (Value.fits_of_isOfType hv)
  | @identifier x p t hx ht =>
    obtain ⟨v, hv, htype⟩ := hm x t hx ht
    refine .value (v := v) ?_ (Value.fits_of_isOfType htype)
    rw [eval_identifier, hv]
    rfl
  | signed hop ht ho ih =>
    have hinner := ih he.2 (hgaps.of_reaches fun _ => .signed)
    refine hinner.lift he (fun _ => .signed) fun v hv hfits => ?_
    obtain ⟨a, rfl⟩ := hfits.number ht
    exact outcome_signed hop ht hv
  | arithmetic hop ht hl hr ihl ihr =>
    have hleft := ihl he.2.1 (hgaps.of_reaches fun _ => .arithmeticLeft)
    refine hleft.lift he (fun _ => .arithmeticLeft) fun v hv hfits => ?_
    have hright := ihr he.2.2 (hgaps.of_reaches fun _ => .arithmeticRight hv)
    exact outcome_sides ht he hv hfits hright
  | @beforeOperation op l r t hop ht hl hr ih =>
    have hleft := ih he.2.1 (hgaps.of_reaches fun _ => .arithmeticLeft)
    refine hleft.lift he (fun _ => .arithmeticLeft) fun v hv hfits => ?_
    -- the gap: what is known of the right side is only that it fits
    refine outcome_sides ht he hv hfits ((hgaps.operation op l r .refl hr).outcome he.2.2 ?_)
    rintro _ ⟨b, rfl⟩
    exact Value.fits_number b ht
  | negation ho ih =>
    have hinner := ih he (hgaps.of_reaches fun _ => .negation)
    refine hinner.lift he (fun _ => .negation) fun v hv hfits => ?_
    obtain ⟨x, rfl⟩ := hfits.bool
    exact .value (by rw [eval_negation, EStateM.bind_of_ok hv]; rfl) (Value.fits_bool (!x))
  | logic hop hl hr ihl ihr =>
    have hleft := ihl he.2.1 (hgaps.of_reaches fun _ => .logicLeft)
    refine hleft.lift he (fun _ => .logicLeft) fun v hv hfits => ?_
    obtain ⟨x, rfl⟩ := hfits.bool
    obtain ⟨hdecided, hjoined⟩ := decided_joined hop x
    cases hd : decided? _ (.bool x) with
    | some v =>
      obtain ⟨c, rfl⟩ := hdecided v hd
      exact .value (eval_logic_decided hv hd) (Value.fits_bool c)
    | none =>
      have hright := ihr he.2.2 (hgaps.of_reaches fun _ => .logicRight hv hd)
      refine hright.lift he (fun _ => .logicRight hv hd) fun w hw hfits => ?_
      obtain ⟨y, rfl⟩ := hfits.bool
      obtain ⟨c, hc⟩ := hjoined y
      refine .value (v := .bool c) ?_ (Value.fits_bool c)
      rw [eval_logic_open hv hd, EStateM.bind_of_ok hw, hc]
      rfl
  | @comparison op l r t hop ht hl hr ihl ihr =>
    have hleft := ihl he.2.1 (hgaps.of_reaches fun _ => .comparisonLeft)
    refine hleft.lift he (fun _ => .comparisonLeft) fun a ha hfa => ?_
    have hright := ihr he.2.2 (hgaps.of_reaches fun _ => .comparisonRight ha)
    refine hright.lift he (fun _ => .comparisonRight ha) fun b hb hfb => ?_
    cases heq : op.isEquality with
    | true => exact outcome_equality heq ha hb
    | false =>
      rw [heq] at ht
      have hbool := ht.resolve_left Bool.false_ne_true
      exact outcome_order he heq hl.mem_typeNames hbool hfa hfb ha hb
  | @beforeLogic op l r hop heq hl hr ih =>
    have hleft := ih he.2.1 (hgaps.of_reaches fun _ => .comparisonLeft)
    refine hleft.lift he (fun _ => .comparisonLeft) fun a ha _ => ?_
    cases hright : eval i r m with
    | ok b m' =>
      cases state_of_eval he.2.2 hright
      exact outcome_equality heq ha hright
    | error f m' =>
      have hgap := hgaps.logic op l r .refl heq hr
      rw [FitsGap, hright] at hgap
      exact .fault ((Reaches.comparisonRight ha .refl).error he hright) hgap

/-- **If the gaps fit, a fault is about the kinds of values exactly where a remainder or an order is
asked of a complex number.** -/
theorem ofKinds_iff_meetsComplex (h : Vetted Γ e t) (he : e.IsExpression) (hm : m.Holds i Γ)
    (hgaps : GapsFit i m e) :
    (∃ f m', eval i e m = .error f m' ∧ f.isOfKinds = true) ↔
      ∃ n, Reaches i m e n ∧ MeetsComplex i m n := by
  constructor
  · rintro ⟨f, m', hf, hkinds⟩
    cases outcome_of_vetted h he hm hgaps with
    | value hv => cases hf.symm.trans hv
    | fault hf' hkinds' =>
      cases hf.symm.trans hf'
      rw [hkinds] at hkinds'
      cases hkinds'
    | complex _ _ hn hc => exact ⟨_, hn, hc⟩
  · rintro ⟨n, hn, hc⟩
    obtain ⟨f, hf, hkinds⟩ := hc.error (hn.isExpression he)
    exact ⟨f, m, hn.error he hf, hkinds⟩

/-! ## Integers -/

/-- The run stops at a division or remainder by zero, which is reported. -/
def StopsAtZero (i : ScopeId) (m : Machine) (e : Node) : Prop :=
  ∃ p d, (d = .zeroDivision p ∨ d = .zeroModulo p) ∧
    eval i e m = .error .stopped { m with reports := m.reports ++ [d] }

theorem StopsAtZero.of_reaches (h : StopsAtZero i m n) (he : e.IsExpression)
    (hreach : Reaches i m e n) : StopsAtZero i m e := by
  obtain ⟨p, d, hd, hn⟩ := h
  exact ⟨p, d, hd, hreach.error he hn⟩

/-- What the checker leaves open about integers: on the way, each operation to the right of an
operator gives an integer, and no power has a negative exponent. -/
structure KeepsInts (i : ScopeId) (m : Machine) (e : Node) : Prop where
  skipped : ∀ op l r, Reaches i m e (.arithmetic op l r) → r.isOperation = true →
    ∃ k, eval i r m = .ok (.int k) m
  exponent : ∀ l r k, Reaches i m e (.arithmetic .pow l r) → eval i r m = .ok (.int k) m → 0 ≤ k

theorem KeepsInts.of_reaches (h : KeepsInts i m e)
    (hreach : ∀ k, Reaches i m n k → Reaches i m e k) : KeepsInts i m n :=
  ⟨fun op l r hn => h.skipped op l r (hreach _ hn), fun l r k hn => h.exponent l r k (hreach _ hn)⟩

theorem exists_int_of_isOfType (h : v.isOfType "int" = true) : ∃ k, v = .int k := by
  cases v with
  | int k => exact ⟨k, rfl⟩
  | float | str | bool => simp [Value.isOfType] at h
  | absent | noneValue | complex | record | symbol => cases h

/-- An operation on integers gives an integer or stops at a zero. -/
theorem int_of_ints {op : Arithmetic} (hop : op.isKnown = true) (hl : l.IsExpression) {x y : Int}
    (hx : eval i l m = .ok (.int x) m) (hy : eval i r m = .ok (.int y) m)
    (hexponent : op = .pow → 0 ≤ y) :
    (∃ k, eval i (.arithmetic op l r) m = .ok (.int k) m) ∨
      StopsAtZero i m (.arithmetic op l r) := by
  obtain ⟨k, hk⟩ := Arithmetic.apply_ints hop (m := x) hexponent
  obtain ⟨p, hp⟩ := hl.exists_pos
  have heval : eval i (.arithmetic op l r) m = arithmetic op p (.int x) (.int y) m := by
    rw [eval_arithmetic op hp, EStateM.bind_of_ok hx, EStateM.bind_of_ok hy]
  rcases arithmetic_eq op p (.int x) (.int y) m with ⟨happly, -⟩ | ⟨d, hd, hstop⟩
  · refine .inl ⟨k, ?_⟩
    rw [heval, happly, hk]
    rfl
  · exact .inr ⟨p, d, hd, heval.trans hstop⟩

/-- Integers stay integers, or the run stops at a zero, if what the checker leaves open is as it
should be. -/
theorem int_or_stops (h : Vetted Γ e "int") (he : e.IsExpression) (hm : m.Holds i Γ)
    (hkeeps : KeepsInts i m e) :
    (∃ k, eval i e m = .ok (.int k) m) ∨ StopsAtZero i m e := by
  generalize hint : "int" = t at h
  induction h with
  | @literal kind v p t hkind hv =>
    subst hint
    obtain ⟨k, rfl⟩ := exists_int_of_isOfType hv
    exact .inl ⟨k, eval_literal (by rintro rfl; cases hkind)⟩
  | @identifier x p t hx ht =>
    subst hint
    obtain ⟨v, hv, htype⟩ := hm x "int" hx ht
    obtain ⟨k, rfl⟩ := exists_int_of_isOfType htype
    refine .inl ⟨k, ?_⟩
    rw [eval_identifier, hv]
    rfl
  | signed hop ht ho ih =>
    rcases ih he.2 (hkeeps.of_reaches fun _ => .signed) hint with ⟨k, hk⟩ | hstop
    · obtain ⟨k', hk'⟩ := Sign.apply_int hop k
      refine .inl ⟨k', ?_⟩
      rw [eval_signed, EStateM.bind_of_ok hk, hk']
      rfl
    · exact .inr (hstop.of_reaches he (.signed .refl))
  | @arithmetic op l r t hop ht hl hr ihl ihr =>
    rcases ihl he.2.1 (hkeeps.of_reaches fun _ => .arithmeticLeft) hint with ⟨x, hx⟩ | hstop
    · rcases ihr he.2.2 (hkeeps.of_reaches fun _ => .arithmeticRight hx) hint with ⟨y, hy⟩ | hstop
      · refine int_of_ints hop he.2.1 hx hy ?_
        rintro rfl
        exact hkeeps.exponent l r y .refl hy
      · exact .inr (hstop.of_reaches he (.arithmeticRight hx .refl))
    · exact .inr (hstop.of_reaches he (.arithmeticLeft .refl))
  | @beforeOperation op l r t hop ht hl hr ih =>
    rcases ih he.2.1 (hkeeps.of_reaches fun _ => .arithmeticLeft) hint with ⟨x, hx⟩ | hstop
    · -- the gap: its value is an integer by assumption only
      obtain ⟨y, hy⟩ := hkeeps.skipped op l r .refl hr
      refine int_of_ints hop he.2.1 hx hy ?_
      rintro rfl
      exact hkeeps.exponent l r y .refl hy
    · exact .inr (hstop.of_reaches he (.arithmeticLeft .refl))
  | negation | logic | comparison | beforeLogic => exact absurd hint (by decide)

/-! ## The way back -/

theorem Reaches.isArithmetic (h : Reaches i m e n) (he : e.IsArithmetic) : n.IsArithmetic := by
  induction h with
  | refl => exact he
  | signed _ ih => exact ih he.2
  | arithmeticLeft _ ih => exact ih he.2.1
  | arithmeticRight _ _ ih => exact ih he.2.2
  | negation | comparisonLeft | comparisonRight | logicLeft | logicRight => exact he.elim

/-- An operation gives no truth value: what counts as an integer is one. -/
theorem int_of_operation (he : n.IsArithmetic) (hn : n.isOperation = true) {k : Int}
    (hv : eval i n m = .ok v m') (hk : v.number? = some (.int k)) : v = .int k := by
  cases n with
  | arithmetic op l r =>
    obtain ⟨a, b, -, -, happly⟩ :=
      eval_arithmetic_eq_ok he.2.1.isExpression he.2.2.isExpression hv
    exact Arithmetic.eq_int_of_apply he.1 happly hk
  | _ => cases hn

/-- The sides of an operation that gives an integer count as integers. -/
theorem ints_of_arithmetic {op : Arithmetic} {k : Int} (he : (Node.arithmetic op l r).IsArithmetic)
    (hv : eval i (.arithmetic op l r) m = .ok v m') (hk : v.number? = some (.int k)) :
    ∃ a b x y, eval i l m = .ok a m ∧ eval i r m = .ok b m ∧ a.number? = some (.int x) ∧
      b.number? = some (.int y) ∧ (op = .pow → 0 ≤ y) := by
  cases int_of_operation he rfl hv hk
  obtain ⟨a, b, ha, hb, happly⟩ :=
    eval_arithmetic_eq_ok he.2.1.isExpression he.2.2.isExpression hv
  obtain ⟨x, y, hx, hy, hexponent⟩ := Arithmetic.ints_of_apply he.1 happly
  exact ⟨a, b, x, y, ha, hb, hx, hy, hexponent⟩

/-- All that is evaluated on the way to an integer counts as an integer. -/
theorem Reaches.number (h : Reaches i m e n) (he : e.IsArithmetic) {k : Int}
    (hv : eval i e m = .ok v m) (hk : v.number? = some (.int k)) :
    ∃ w k', eval i n m = .ok w m ∧ w.number? = some (.int k') := by
  induction h generalizing v k with
  | refl => exact ⟨v, k, hv, hk⟩
  | signed _ ih =>
    obtain ⟨a, ha, happly⟩ := eval_signed_eq_ok he.2.isExpression hv
    obtain ⟨x, hx⟩ := Sign.int_of_apply he.1 happly hk
    exact ih he.2 ha hx
  | arithmeticLeft _ ih =>
    obtain ⟨a, b, x, y, ha, -, hx, -, -⟩ := ints_of_arithmetic he hv hk
    exact ih he.2.1 ha hx
  | arithmeticRight _ _ ih =>
    obtain ⟨a, b, x, y, -, hb, -, hy, -⟩ := ints_of_arithmetic he hv hk
    exact ih he.2.2 hb hy
  | negation | comparisonLeft | comparisonRight | logicLeft | logicRight => exact he.elim

/-- What the checker leaves open is as it should be wherever the result is an integer. -/
theorem keepsInts_of_int (he : e.IsArithmetic) {k : Int} (hk : eval i e m = .ok (.int k) m) :
    KeepsInts i m e := by
  refine ⟨fun op l r hn hr => ?_, fun l r n hn hr => ?_⟩
  · obtain ⟨w, k', hw, hk'⟩ := hn.number he hk rfl
    obtain ⟨a, b, x, y, -, hb, -, hy, -⟩ := ints_of_arithmetic (hn.isArithmetic he) hw hk'
    cases int_of_operation (hn.isArithmetic he).2.2 hr hb hy
    exact ⟨y, hb⟩
  · obtain ⟨w, k', hw, hk'⟩ := hn.number he hk rfl
    obtain ⟨a, b, x, y, -, hb, -, hy, hexponent⟩ := ints_of_arithmetic (hn.isArithmetic he) hw hk'
    cases hb.symm.trans hr
    cases hy
    exact hexponent rfl

/-- **An expression that passes as an integer stops at a zero, or gives an integer exactly if what
the checker leaves open is as it should be.** -/
theorem int_iff_keepsInts (h : Vetted Γ e "int") (he : e.IsArithmetic) (hm : m.Holds i Γ) :
    StopsAtZero i m e ∨ ((∃ k, eval i e m = .ok (.int k) m) ↔ KeepsInts i m e) := by
  by_cases hkeeps : KeepsInts i m e
  · rcases int_or_stops h he.isExpression hm hkeeps with hk | hstop
    · exact .inr ⟨fun _ => hkeeps, fun _ => hk⟩
    · exact .inl hstop
  · refine .inr ⟨?_, fun h => absurd h hkeeps⟩
    rintro ⟨k, hk⟩
    exact absurd (keepsInts_of_int he hk) hkeeps

end Run

end Scriptlet
