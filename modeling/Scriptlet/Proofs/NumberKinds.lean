import Scriptlet.Value.Arithmetic

/-! # The kinds of numbers that operations give

An operation on two numbers gives a number, or a fault that has nothing to do with their kinds: the
result is too large, or zero has no such power. The remainder of complex numbers is the only
exception. Integers stay integers but for powers with a negative exponent, and once a number is no
integer, no operation makes one of it again.
-/
namespace Scriptlet

/-- The format faults that a value is of the wrong kind, or that there is no value for a directive
or no directive for a value. -/
def FormatFault.isOfKinds : FormatFault → Bool
  | .tooFewValues | .tooManyValues | .noFields | .realRequired .. | .integerRequired ..
  | .floatRequired _ | .characterRequired | .sizeRequired => true
  | _ => false

/-- The faults that an operation is not defined on values of these kinds. -/
def Fault.isOfKinds : Fault → Bool
  | .operands .. | .concatenation _ | .repetition _ | .unordered .. | .signOperand ..
  | .promptCount _ | .unshowable _ | .unshowableKind _ | .noParts => true
  | .format cause => cause.isOfKinds
  | _ => false

namespace Number

/-- A number that is no integer. -/
def IsBroken (a : Number) : Prop :=
  ∀ n, a ≠ .int n

/-- Whether a number is complex. -/
def isComplex : Number → Bool
  | complex .. => true
  | _ => false

theorem isComplex_or_of_not {a b : Number} (h : ¬(a.isComplex = false ∧ b.isComplex = false)) :
    a.isComplex = true ∨ b.isComplex = true := by
  rwa [Decidable.not_and_iff_or_not, Bool.not_eq_false, Bool.not_eq_false] at h

theorem number?_value (a : Number) : a.value.number? = some a := by
  cases a <;> rfl

/-- The result is a number with the property, or a fault that has nothing to do with kinds. -/
def Gives (P : Number → Prop) (result : Except Fault Value) : Prop :=
  match result with
  | .ok v => ∃ a, v = a.value ∧ P a
  | .error f => f.isOfKinds = false

theorem Gives.mono {P Q : Number → Prop} {result : Except Fault Value} (h : Gives P result)
    (hpq : ∀ a, P a → Q a) : Gives Q result := by
  cases result with
  | ok v =>
    obtain ⟨a, rfl, ha⟩ := h
    exact ⟨a, rfl, hpq a ha⟩
  | error f => exact h

theorem Gives.ite {P : Number → Prop} {c : Prop} [Decidable c] {a b : Except Fault Value}
    (ha : Gives P a) (hb : Gives P b) : Gives P (if c then a else b) := by
  by_cases hc : c
  · rwa [if_pos hc]
  · rwa [if_neg hc]

theorem gives_float (x : Float) : Gives IsBroken (.ok (.float x)) :=
  ⟨.float x, rfl, fun _ => nofun⟩

theorem gives_complex (re im : Float) : Gives IsBroken (.ok (.complex re im)) :=
  ⟨.complex re im, rfl, fun _ => nofun⟩

/-! ## Powers -/

theorem floatOfInt_error {n : Int} {f : Fault} (h : floatOfInt n = .error f) :
    f = .integerTooLarge := by
  rw [floatOfInt] at h
  split at h
  · cases h
    rfl
  · cases h

theorem complexPow_gives (a b : Complex.Parts) :
    Gives IsBroken ((Complex.pow a b).map ofParts) := by
  rw [Complex.pow]
  split
  · rfl
  · split
    · rfl
    · exact gives_complex _ _

theorem signedPower_gives (negative : Bool) (x y : Float) :
    Gives IsBroken ((signedPower negative x y).map .float) := by
  rw [signedPower]
  split
  · rfl
  · exact gives_float _

/-- A power of floating-point numbers is no integer. -/
theorem floatPower_gives (x y : Float) : Gives IsBroken (floatPower x y) := by
  have hfloat : ∀ z, Gives IsBroken (.ok (.float z)) := gives_float
  unfold floatPower
  refine .ite (hfloat _) (.ite (hfloat _) (.ite (hfloat _) (.ite (hfloat _) (.ite ?_ ?_))))
  · exact .ite (hfloat _) (hfloat _)
  refine .ite (.ite rfl (hfloat _)) (.ite ?_ (.ite (hfloat _) (signedPower_gives _ _ _)))
  · exact .ite (complexPow_gives _ _) (.ite (hfloat _) (signedPower_gives _ _ _))

/-- A power of integers is an integer unless the exponent is negative. -/
theorem intPower_of_nonneg {n : Int} (h : 0 ≤ n) (m : Int) :
    intPower m n = .ok (.int (power m n.toNat)) := by
  rw [intPower, if_pos h]

theorem intPower_gives {n : Int} (h : n < 0) (m : Int) : Gives IsBroken (intPower m n) := by
  rw [intPower, if_neg (by omega)]
  cases hm : floatOfInt m with
  | error f =>
    rw [floatOfInt_error hm]
    rfl
  | ok x =>
    cases hn : floatOfInt n with
    | error f =>
      rw [floatOfInt_error hn]
      rfl
    | ok y => exact floatPower_gives x y

/-! ## Numbers of one kind -/

theorem toFloat_cases (a : Number) :
    a.toFloat = .error .integerTooLarge ∨ ∃ x, a.toFloat = .ok x := by
  cases a with
  | int n =>
    cases h : floatOfInt n with
    | error f =>
      rw [floatOfInt_error h] at h
      exact .inl h
    | ok x => exact .inr ⟨x, h⟩
  | float x => exact .inr ⟨x, rfl⟩
  | complex re im => exact .inr ⟨re, rfl⟩

theorem toComplex_cases (a : Number) :
    a.toComplex = .error .integerTooLarge ∨ ∃ p, a.toComplex = .ok p := by
  cases a with
  | int n =>
    rcases (int n).toFloat_cases with h | ⟨x, h⟩
    · exact .inl (congrArg (Except.map (·, 0.0)) h)
    · exact .inr ⟨_, congrArg (Except.map (·, 0.0)) h⟩
  | float x => exact .inr ⟨_, rfl⟩
  | complex re im => exact .inr ⟨_, rfl⟩

/-- Two conversions one after the other. -/
theorem pair_cases {α β : Type} {x y : Except Fault α} (g : α → α → β)
    (hx : x = .error .integerTooLarge ∨ ∃ a, x = .ok a)
    (hy : y = .error .integerTooLarge ∨ ∃ a, y = .ok a) :
    (do return g (← x) (← y)) = Except.error Fault.integerTooLarge ∨
      ∃ a b, (do return g (← x) (← y)) = Except.ok (ε := Fault) (g a b) := by
  rcases hx with rfl | ⟨a, rfl⟩
  · exact .inl rfl
  rcases hy with rfl | ⟨b, rfl⟩
  · exact .inl rfl
  · exact .inr ⟨a, b, rfl⟩

/-- Two numbers that are not both integers are brought to floating-point numbers, or to complex
ones if one of them is. -/
theorem align_cases {a b : Number} (hab : a.IsBroken ∨ b.IsBroken) :
    a.align b = .error .integerTooLarge ∨ (∃ x y, a.align b = .ok (.floats x y)) ∨
      ((a.isComplex = true ∨ b.isComplex = true) ∧ ∃ p q, a.align b = .ok (.complexes p q)) := by
  have hfloats := pair_cases Aligned.floats a.toFloat_cases b.toFloat_cases
  have hcomplexes := pair_cases Aligned.complexes a.toComplex_cases b.toComplex_cases
  cases a with
  | int m =>
    cases b with
    | int n => exact (hab.elim (fun h => h m rfl) (fun h => h n rfl)).elim
    | float y => exact hfloats.imp_right .inl
    | complex re im => exact hcomplexes.imp_right fun h => .inr ⟨.inr rfl, h⟩
  | float x =>
    cases b with
    | int n => exact hfloats.imp_right .inl
    | float y => exact hfloats.imp_right .inl
    | complex re im => exact hcomplexes.imp_right fun h => .inr ⟨.inr rfl, h⟩
  | complex re im => exact hcomplexes.imp_right fun h => .inr ⟨.inl rfl, h⟩

/-! ## All operators -/

section Operators
variable {op : Arithmetic} (hop : ∀ text, op ≠ .other text)
include hop

theorem onFloats_gives (x y : Float) : Gives IsBroken (op.onFloats x y) := by
  cases op with
  | add | sub | mul | div | mod => exact gives_float _
  | pow => exact floatPower_gives x y
  | other text => exact absurd rfl (hop text)

theorem onComplexes_gives (hmod : op ≠ .mod) (a b : Complex.Parts) :
    Gives IsBroken (op.onComplexes a b) := by
  cases op with
  | add | sub | mul | div => exact gives_complex _ _
  | pow => exact complexPow_gives a b
  | mod => exact absurd rfl hmod
  | other text => exact absurd rfl (hop text)

/-- Integers stay integers but for powers with a negative exponent. -/
theorem onInts_of_nonneg {m n : Int} (h : op = .pow → 0 ≤ n) :
    ∃ k, op.onInts m n = .ok (.int k) := by
  cases op with
  | add | sub | mul | div | mod => exact ⟨_, rfl⟩
  | pow => exact ⟨_, intPower_of_nonneg (h rfl) m⟩
  | other text => exact absurd rfl (hop text)

theorem onInts_gives (m n : Int) :
    Gives (fun a => a.IsBroken ∨ (op = .pow → 0 ≤ n)) (op.onInts m n) := by
  by_cases h : op = .pow → 0 ≤ n
  · obtain ⟨k, hk⟩ := onInts_of_nonneg hop h
    rw [hk]
    exact ⟨.int k, rfl, .inr h⟩
  · obtain ⟨rfl, hn⟩ := Classical.not_imp.mp h
    exact (intPower_gives (Int.not_le.mp hn) m).mono fun _ => .inl

/-- Two numbers that are not both integers give no integer. -/
theorem onNumbers_gives_broken {a b : Number}
    (hmod : op = .mod → a.isComplex = false ∧ b.isComplex = false)
    (hab : a.IsBroken ∨ b.IsBroken) : Gives IsBroken (op.onNumbers a b) := by
  rw [Arithmetic.onNumbers]
  rcases align_cases hab with h | ⟨x, y, h⟩ | ⟨hcomplex, p, q, h⟩ <;> rw [h]
  · rfl
  · exact onFloats_gives hop x y
  · refine onComplexes_gives hop (fun hm => ?_) p q
    obtain ⟨ha, hb⟩ := hmod hm
    rw [ha, hb] at hcomplex
    exact hcomplex.elim Bool.false_ne_true Bool.false_ne_true

end Operators

end Number

namespace Arithmetic
variable {op : Arithmetic}

/-- Whether this is an operator of the language. -/
def isKnown : Arithmetic → Bool
  | other _ => false
  | _ => true

theorem ne_other (h : op.isKnown = true) (text : String) : op ≠ other text := by
  rintro rfl
  cases h

section Numbers
variable {a b : Value} {x y : Number} (ha : a.number? = some x) (hb : b.number? = some y)
include ha hb

/-- The operator on two values that are numbers. -/
theorem apply_numbers (hmod : op = mod → x.isComplex = false ∧ y.isComplex = false) :
    op.apply a b = op.onNumbers x y := by
  rw [apply.eq_def, ha, hb]
  split
  · rename_i hx _
    cases hx
    cases (hmod rfl).1
  · rename_i hy
    cases hy
    cases (hmod rfl).2
  · rename_i hx hy
    cases hx
    cases hy
    rfl
  · rename_i hnone _ _
    exact (hnone x y rfl rfl).elim

/-- Complex numbers have no remainder. -/
theorem apply_mod_of_complex (h : x.isComplex = true ∨ y.isComplex = true) :
    ∃ f, mod.apply a b = .error f ∧ f.isOfKinds = true := by
  refine ⟨mod.undefinedOn a b, ?_, rfl⟩
  rw [apply.eq_def, ha, hb]
  cases x with
  | complex re im => rfl
  | int m =>
    cases y with
    | complex re im => rfl
    | int | float => exact (h.elim Bool.false_ne_true Bool.false_ne_true).elim
  | float x =>
    cases y with
    | complex re im => rfl
    | int | float => exact (h.elim Bool.false_ne_true Bool.false_ne_true).elim

/-- **An operation on numbers gives a number**, which is an integer only if both are integers and
the exponent of a power is not negative. -/
theorem apply_gives (hop : op.isKnown = true)
    (hmod : op = mod → x.isComplex = false ∧ y.isComplex = false) :
    Number.Gives (fun c => c.IsBroken ∨ ∃ m n, x = .int m ∧ y = .int n ∧ (op = pow → 0 ≤ n))
      (op.apply a b) := by
  rw [apply_numbers ha hb hmod]
  by_cases hints : ∃ m n, x = .int m ∧ y = .int n
  · obtain ⟨m, n, rfl, rfl⟩ := hints
    refine (Number.onInts_gives (ne_other hop) m n).mono ?_
    exact fun _ => Or.imp_right fun h => ⟨m, n, rfl, rfl, h⟩
  · refine (Number.onNumbers_gives_broken (ne_other hop) hmod ?_).mono fun _ => .inl
    by_cases hx : x.IsBroken
    · exact .inl hx
    · simp only [Number.IsBroken, Classical.not_forall, Classical.not_not] at hx
      obtain ⟨m, rfl⟩ := hx
      exact .inr fun n hy => hints ⟨m, n, rfl, hy⟩

end Numbers

/-- An operation on values that are not both numbers gives a text, if it gives anything. -/
theorem onOthers_text (hop : op.isKnown = true) {a b v : Value} (h : op.onOthers a b = .ok v) :
    ∃ s, v = .str s := by
  have hrepeat : ∀ s count, repeatText s count = .ok v → ∃ s, v = .str s := by
    intro s count hv
    rw [repeatText] at hv
    repeat' split at hv
    all_goals cases hv
    all_goals exact ⟨_, rfl⟩
  have hformat : ∀ s, (Value.format s b).map .str = .ok v → ∃ s, v = .str s := by
    intro s hv
    cases hs : Value.format s b with
    | ok text =>
      rw [hs] at hv
      cases hv
      exact ⟨text, rfl⟩
    | error f =>
      rw [hs] at hv
      cases hv
  rw [onOthers.eq_def] at h
  split at h
  · cases hop
  · cases h
    exact ⟨_, rfl⟩
  · cases h
  · exact hrepeat _ _ h
  · exact hrepeat _ _ h
  · exact hformat _ h
  · cases h

/-- **What an operation gives**: a text, or a number if both sides are numbers, and then an integer
only if both are integers and the exponent of a power is not negative. -/
theorem apply_ok (hop : op.isKnown = true) {a b v : Value} (h : op.apply a b = .ok v) :
    (∃ s, v = .str s) ∨ ∃ c : Number, v = c.value ∧ (c.IsBroken ∨
      ∃ m n, a.number? = some (.int m) ∧ b.number? = some (.int n) ∧ (op = pow → 0 ≤ n)) := by
  by_cases hnumbers : ∃ x y, a.number? = some x ∧ b.number? = some y
  · obtain ⟨x, y, ha, hb⟩ := hnumbers
    by_cases hmod : op = mod → x.isComplex = false ∧ y.isComplex = false
    · have hgives := apply_gives ha hb hop hmod
      rw [h] at hgives
      obtain ⟨c, hc, hints⟩ := hgives
      refine .inr ⟨c, hc, hints.imp_right ?_⟩
      rintro ⟨m, n, rfl, rfl, hn⟩
      exact ⟨m, n, ha, hb, hn⟩
    · obtain ⟨rfl, hcomplex⟩ := Classical.not_imp.mp hmod
      obtain ⟨f, hf, -⟩ := apply_mod_of_complex ha hb (Number.isComplex_or_of_not hcomplex)
      cases hf.symm.trans h
  · -- not both are numbers: only the operations on texts are left
    refine .inl (onOthers_text hop (?_ : op.onOthers a b = .ok v))
    rw [← h, apply.eq_def]
    split
    · rename_i hx hy
      exact absurd ⟨_, _, hx, hy⟩ hnumbers
    · rename_i hx hy
      exact absurd ⟨_, _, hx, hy⟩ hnumbers
    · rename_i hx hy
      exact absurd ⟨_, _, hx, hy⟩ hnumbers
    · rfl

/-- An operation gives an integer only if both sides are integers, or count as integers, and the
exponent of a power is not negative. -/
theorem ints_of_apply (hop : op.isKnown = true) {a b : Value} {k : Int}
    (h : op.apply a b = .ok (.int k)) :
    ∃ m n, a.number? = some (.int m) ∧ b.number? = some (.int n) ∧ (op = pow → 0 ≤ n) := by
  rcases apply_ok hop h with ⟨s, ⟨⟩⟩ | ⟨c, hc, hbroken | hints⟩
  · cases c with
    | int n => exact absurd rfl (hbroken n)
    | float | complex => cases hc
  · exact hints

/-- An operation gives no truth value: what counts as an integer is one. -/
theorem eq_int_of_apply (hop : op.isKnown = true) {a b v : Value} {k : Int}
    (h : op.apply a b = .ok v) (hv : v.number? = some (.int k)) : v = .int k := by
  rcases apply_ok hop h with ⟨s, rfl⟩ | ⟨c, rfl, -⟩
  · cases hv
  · rw [c.number?_value] at hv
    cases hv
    rfl

theorem apply_ints (hop : op.isKnown = true) {m n : Int} (h : op = pow → 0 ≤ n) :
    ∃ k, op.apply (.int m) (.int n) = .ok (.int k) := by
  obtain ⟨k, hk⟩ := Number.onInts_of_nonneg (ne_other hop) h
  refine ⟨k, ?_⟩
  rw [apply_numbers (x := .int m) (y := .int n) rfl rfl fun _ => ⟨rfl, rfl⟩]
  exact hk

end Arithmetic

/-- Whether this is a sign of the language. -/
def Sign.isKnown : Sign → Bool
  | other _ => false
  | _ => true

/-- A sign before a number gives a number. -/
theorem Sign.apply_value {op : Sign} (hop : op.isKnown = true) (a : Number) :
    ∃ c : Number, op.apply a.value = .ok c.value := by
  cases op with
  | minus => cases a <;> exact ⟨_, rfl⟩
  | plus => cases a <;> exact ⟨_, rfl⟩
  | other => cases hop

/-- A sign gives an integer only before an integer, or what counts as one. -/
theorem Sign.int_of_apply {op : Sign} (hop : op.isKnown = true) {a v : Value} {k : Int}
    (h : op.apply a = .ok v) (hv : v.number? = some (.int k)) : ∃ n, a.number? = some (.int n) := by
  rw [Sign.apply.eq_def] at h
  split at h
  · cases hop
  · rename_i x hx
    cases h
    rw [Number.number?_value] at hv
    cases x with
    | int n => exact ⟨n, hx⟩
    | float | complex => cases hv
  · rename_i x hx
    cases h
    rw [Number.number?_value] at hv
    cases hv
    exact ⟨k, hx⟩
  · cases h

theorem Sign.apply_int {op : Sign} (hop : op.isKnown = true) (n : Int) :
    ∃ k, op.apply (.int n) = .ok (.int k) := by
  cases op with
  | minus | plus => exact ⟨_, rfl⟩
  | other => cases hop

/-- An order that is defined is a truth value. -/
theorem Comparison.bool_of_order {op : Comparison} {a b v : Value} (h : op.order a b = .ok v) :
    ∃ c, v = .bool c := by
  rw [Comparison.order.eq_def] at h
  split at h
  · cases h
    exact ⟨_, rfl⟩
  · split at h
    · cases h
    · cases h
    · cases h
    · cases h
    · cases h
      exact ⟨_, rfl⟩

/-- Two numbers that are not complex have an order. -/
theorem Comparison.order_of_real (op : Comparison) {a b : Number} (ha : a.isComplex = false)
    (hb : b.isComplex = false) : ∃ c, op.order a.value b.value = .ok (.bool c) := by
  cases a with
  | int | float =>
    cases b with
    | int | float => exact ⟨_, rfl⟩
    | complex => cases hb
  | complex => cases ha

/-- Complex numbers have no order. -/
theorem Comparison.order_of_complex (op : Comparison) {a b : Number}
    (h : a.isComplex = true ∨ b.isComplex = true) :
    ∃ f, op.order a.value b.value = .error f ∧ f.isOfKinds = true := by
  cases a with
  | int | float =>
    cases b with
    | int | float => exact (h.elim Bool.false_ne_true Bool.false_ne_true).elim
    | complex => exact ⟨_, rfl, rfl⟩
  | complex => cases b <;> exact ⟨_, rfl, rfl⟩

end Scriptlet
