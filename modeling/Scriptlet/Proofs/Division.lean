import Scriptlet.Proofs.Evaluation
import Scriptlet.Proofs.NumberKinds
import Scriptlet.Proofs.ValueFaults

/-! # Division and remainder

A quotient of integers is rounded down, and a remainder has the sign of its divisor. So the two fit
together: quotient times divisor plus remainder is the dividend, whatever the signs are. Here truth
values count as integers, on both sides.

A divisor is compared with zero before it is used. This finds exactly the values that are zero, also
among the floating-point and complex numbers (`Value.equals_zero`), so that no operator is ever
applied to a zero divisor.
-/
namespace Scriptlet

/-! ## Zero among the floating-point numbers -/

namespace Number

open Float.Model

/-- A floating-point number equals zero if it is one of the two zeros. -/
theorem beq_zero_iff (x : Float) : (x == 0.0) = true ↔ ∃ s, x.toModel.unpack = .zero s := by
  have hzero : (Float.toModel 0.0).unpack = .zero .positive := rfl
  show (x.toModel.unpack.compare (Float.toModel 0.0).unpack == some .eq) = true ↔ _
  rw [hzero]
  constructor
  · intro h
    cases hx : x.toModel.unpack with
    | zero s => exact ⟨s, rfl⟩
    | notANumber =>
      rw [hx] at h
      exact absurd h (by decide)
    | infinity s =>
      rw [hx] at h
      cases s <;> exact absurd h (by decide)
    | finite s m e hm =>
      rw [hx] at h
      cases s <;> exact absurd h Bool.false_ne_true
  · rintro ⟨s, hs⟩
    rw [hs]
    rfl

section Zeros

variable {spec : Format} {b : BitVec spec.numBits}

theorem unpack_zero (hspec : (0#_ : BitVec spec.exponentBits) ≠ -1#_)
    (he : UnpackedFloat.unpackExponent b = 0#_) (hm : UnpackedFloat.unpackMantissa b = 0#_) :
    ∃ s, UnpackedFloat.unpack spec b = .zero s := by
  have hfinite : UnpackedFloat.unpackExponent b ≠ -1#_ := fun h => hspec (he.symm.trans h)
  exact ⟨_, (if_neg hfinite).trans ((if_pos he).trans (dif_pos hm))⟩

theorem unpackExponent_of_zero {s : UnpackedFloat.Sign}
    (h : UnpackedFloat.unpack spec b = .zero s) : UnpackedFloat.unpackExponent b = 0#_ := by
  by_cases hinfinite : UnpackedFloat.unpackExponent b = -1#_
  · by_cases hm : UnpackedFloat.unpackMantissa b = 0#_
    · have hu : UnpackedFloat.unpack spec b = .infinity _ :=
        (if_pos hinfinite).trans (if_pos hm)
      cases hu.symm.trans h
    · have hu : UnpackedFloat.unpack spec b = .notANumber :=
        (if_pos hinfinite).trans (if_neg hm)
      cases hu.symm.trans h
  · by_cases he : UnpackedFloat.unpackExponent b = 0#_
    · exact he
    · have hu : UnpackedFloat.unpack spec b = .finite _ _ _ _ :=
        (if_neg hinfinite).trans (if_neg he)
      cases hu.symm.trans h

theorem unpackMantissa_of_zero {s : UnpackedFloat.Sign}
    (hspec : (0#_ : BitVec spec.exponentBits) ≠ -1#_) (h : UnpackedFloat.unpack spec b = .zero s) :
    UnpackedFloat.unpackMantissa b = 0#_ := by
  have he : UnpackedFloat.unpackExponent b = 0#_ := unpackExponent_of_zero h
  have hfinite : UnpackedFloat.unpackExponent b ≠ -1#_ := fun hb => hspec (he.symm.trans hb)
  by_cases hm : UnpackedFloat.unpackMantissa b = 0#_
  · exact hm
  · have hu : UnpackedFloat.unpack spec b = .finite _ _ _ _ :=
      (if_neg hfinite).trans ((if_pos he).trans (dif_neg hm))
    cases hu.symm.trans h

/-- The zeros of a format are the patterns with neither exponent nor fraction. -/
theorem unpack_eq_zero_iff (hspec : (0#_ : BitVec spec.exponentBits) ≠ -1#_) :
    (∃ s, UnpackedFloat.unpack spec b = .zero s) ↔
      UnpackedFloat.unpackExponent b = 0#_ ∧ UnpackedFloat.unpackMantissa b = 0#_ := by
  constructor
  · rintro ⟨s, hs⟩
    exact ⟨unpackExponent_of_zero hs, unpackMantissa_of_zero hspec hs⟩
  · rintro ⟨he, hm⟩
    exact unpack_zero hspec he hm

end Zeros

theorem toNat_exponent (x : Float) :
    (@UnpackedFloat.unpackExponent .binary64 x.toModel.toBits.toBitVec).toNat =
      x.toBits.toNat / Decimal.twoPow 52 % Decimal.twoPow 11 := by
  show (BitVec.cast _ (BitVec.extractLsb _ _ _)).toNat = _
  rw [BitVec.toNat_cast, BitVec.extractLsb_toNat, Nat.shiftRight_eq_div_pow]
  rfl

theorem toNat_mantissa (x : Float) :
    (@UnpackedFloat.unpackMantissa .binary64 x.toModel.toBits.toBitVec).toNat =
      x.toBits.toNat % Decimal.twoPow 52 := by
  show (BitVec.cast _ (BitVec.extractLsb _ _ _)).toNat = _
  rw [BitVec.toNat_cast, BitVec.extractLsb_toNat, Nat.shiftRight_zero]
  rfl

/-- The numbers that equal zero are those with a zero significand. -/
theorem beq_zero_iff_significand (x : Float) :
    (x == 0.0) = true ↔ (Decimal.Binary.ofFloat x).m = 0 := by
  have hspec : (0#_ : BitVec (Format.exponentBits .binary64)) ≠ -1#_ := by decide
  have hpos : 0 < Decimal.twoPow 52 := Nat.pow_pos (by decide)
  rw [beq_zero_iff]
  refine (unpack_eq_zero_iff hspec).trans ?_
  rw [← BitVec.toNat_inj, ← BitVec.toNat_inj, toNat_exponent, toNat_mantissa, BitVec.toNat_ofNat,
    BitVec.toNat_ofNat, Nat.zero_mod, Nat.zero_mod, Decimal.Binary.ofFloat]
  split
  · rename_i he
    exact ⟨And.right, fun h => ⟨he, h⟩⟩
  · rename_i he
    exact ⟨fun h => absurd h.1 he, fun h => by dsimp only at h; omega⟩

theorem not_isNaN_of_beq_zero {x : Float} (h : (x == 0.0) = true) : x.isNaN = false := by
  obtain ⟨s, hs⟩ := (beq_zero_iff x).mp h
  show x.toModel.unpack.isNaN = false
  rw [hs]
  rfl

theorem not_isInf_of_beq_zero {x : Float} (h : (x == 0.0) = true) : x.isInf = false := by
  obtain ⟨s, hs⟩ := (beq_zero_iff x).mp h
  show x.toModel.unpack.isInf = false
  rw [hs]
  rfl

/-- The integer zero compares with the numbers that equal zero, and no others, as equal. -/
theorem compareIntFloat_zero (x : Float) : compareIntFloat 0 x = some .eq ↔ (x == 0.0) = true := by
  unfold compareIntFloat
  split
  · rename_i hnan
    refine ⟨fun h => (by cases h), fun h => ?_⟩
    rw [not_isNaN_of_beq_zero h] at hnan
    cases hnan
  split
  · rename_i hinf
    refine ⟨fun h => (by split at h <;> cases h), fun h => ?_⟩
    rw [not_isInf_of_beq_zero h] at hinf
    cases hinf
  dsimp only
  have hpos : 0 < Decimal.twoPow (Decimal.Binary.ofFloat x).q.toNat := Nat.pow_pos (by decide)
  have hnumerator :
      (Decimal.Binary.ofFloat x).numerator = 0 ↔ (Decimal.Binary.ofFloat x).m = 0 := by
    rw [Decimal.Binary.numerator, Nat.mul_eq_zero]
    omega
  rw [beq_zero_iff_significand, ← hnumerator, Int.zero_mul, Option.some_inj, Int.compare_eq_eq]
  split <;> omega

end Number

/-- Whether a value is the number zero, of any kind. -/
def Value.isZero : Value → Bool
  | .bool b => !b
  | .int n => n == 0
  | .float x => x == 0.0
  | .complex re im => re == 0.0 && im == 0.0
  | _ => false

/-- The values that equal the integer zero are the zeros. -/
theorem Value.equals_zero (v : Value) : v.equals (.int 0) = v.isZero := by
  have hfloat (x : Float) :
      ((Number.float x).compare? (.int 0) == some .eq) = (x == 0.0) := by
    rw [Bool.eq_iff_iff, ← Number.compareIntFloat_zero, beq_iff_eq]
    show (Number.compareIntFloat 0 x).map Ordering.swap = some .eq ↔ _
    rcases Number.compareIntFloat 0 x with - | (_ | _ | _) <;> decide
  cases v with
  | bool b => cases b <;> rfl
  | int n =>
    show (some (compare n 0) == some .eq) = (n == 0)
    rw [Bool.eq_iff_iff, beq_iff_eq, beq_iff_eq, Option.some_inj, Int.compare_eq_eq]
  | float x => exact hfloat x
  | complex re im =>
    show (im == 0.0 && ((Number.float re).compare? (.int 0) == some .eq)) = (re == 0.0 && im == 0.0)
    rw [hfloat, Bool.and_comm]
  | absent | noneValue | str | record | symbol => rfl

theorem Value.isZero_of_int {v : Value} {n : Int} (h : v.number? = some (.int n)) :
    v.isZero = true ↔ n = 0 := by
  cases v with
  | bool b => cases b <;> cases h <;> decide
  | int k =>
    cases h
    exact beq_iff_eq
  | absent | noneValue | float | complex | str | record | symbol => cases h

/-- An integer equals any value that stands for it. -/
theorem Value.equals_of_int {u : Value} {x : Int} (hx : u.number? = some (.int x)) :
    (Value.int x).equals u = true := by
  have hself : (some (compare x x) == some .eq) = true := by
    rw [Int.compare_eq_eq.mpr rfl]
    rfl
  cases u with
  | bool | int =>
    cases hx
    exact hself
  | absent | noneValue | float | complex | str | record | symbol => cases hx

/-! ## The operators with a divisor -/

/-- Whether the operator has a divisor. -/
def Arithmetic.divides : Arithmetic → Bool
  | div | mod => true
  | _ => false

/-- What is reported of a zero divisor, if the dividend stands at `p`. -/
def Arithmetic.zeroReport (p : Pos) : Arithmetic → Diagnostic
  | mod => .zeroModulo p
  | _ => .zeroDivision p

/-- The faults of an operator on zero. -/
def Fault.isOfZero : Fault → Bool
  | .zeroToNegativePower | .complexZeroPower => true
  | _ => false

namespace Arithmetic

variable {op : Arithmetic}

theorem onOthers_faults (hop : op.divides = true) (a b : Value) :
    FaultsAre (!·.isOfZero) (op.onOthers a b) := by
  cases op with
  | div => exact .error rfl
  | mod =>
    cases a with
    | str s =>
      -- the remainder of a text is the text with values written into it
      refine ((Value.isFormatted_format s b).mono fun f hf => ?_).map _
      cases f <;> first | rfl | cases hf
    | absent | noneValue | bool | int | float | complex | record | symbol => exact .error rfl
  | add | sub | mul | pow | other => cases hop

theorem onNumbers_faults (hop : op.divides = true) (a b : Number) :
    FaultsAre (!·.isOfZero) (op.onNumbers a b) := by
  refine (Number.align_faults rfl a b).bind fun aligned => ?_
  cases op with
  | div | mod => cases aligned <;> exact .ok _
  | add | sub | mul | pow | other => cases hop

/-- Zero causes a fault of a power only. -/
theorem apply_faults (hop : op.divides = true) (a b : Value) :
    FaultsAre (!·.isOfZero) (op.apply a b) := by
  unfold apply
  split
  · exact .error rfl
  · exact .error rfl
  · exact onNumbers_faults hop _ _
  · exact onOthers_faults hop a b

theorem apply_of_ints {a b : Value} {x y : Int} (ha : a.number? = some (.int x))
    (hb : b.number? = some (.int y)) : op.apply a b = op.onInts x y :=
  apply_numbers ha hb fun _ => ⟨rfl, rfl⟩

end Arithmetic

/-- A remainder is nearer to zero than its divisor, and on the same side. -/
theorem fmod_bounds (x : Int) {y : Int} (hy : y ≠ 0) :
    (x.fmod y).natAbs < y.natAbs ∧ (x.fmod y = 0 ∨ (x.fmod y).sign = y.sign) := by
  have hsign {r y : Int} (hr : 0 ≤ r) (hy : 0 < y) : r = 0 ∨ r.sign = y.sign := by
    rcases Int.lt_or_eq_of_le hr with hpos | hzero
    · exact .inr ((Int.sign_eq_one_of_pos hpos).trans (Int.sign_eq_one_of_pos hy).symm)
    · exact .inl hzero.symm
  rcases Int.lt_or_gt_of_ne hy with hneg | hpos
  · -- with both signs changed, the divisor is positive
    have hpos : 0 < -y := by omega
    have hnonneg := Int.fmod_nonneg_of_pos (-x) hpos
    have hlt := Int.fmod_lt_of_pos (-x) hpos
    have hs := hsign hnonneg hpos
    rw [Int.neg_fmod_neg] at hnonneg hlt hs
    rw [Int.sign_neg, Int.sign_neg] at hs
    omega
  · have hnonneg := Int.fmod_nonneg_of_pos x hpos
    have hlt := Int.fmod_lt_of_pos x hpos
    exact ⟨by omega, hsign hnonneg hpos⟩

namespace Run

variable {i : ScopeId} {m m₁ m₂ : Machine} {a b : Node} {u w : Value} {p : Pos} {op : Arithmetic}

theorem arithmetic_of_zero (hop : op.divides = true) (hw : w.isZero = true) :
    arithmetic op p u w m =
      .error .stopped { m with reports := m.reports ++ [op.zeroReport p] } := by
  rw [← Value.equals_zero] at hw
  cases op with
  | div | mod =>
    rw [arithmetic, if_pos hw]
    rfl
  | add | sub | mul | pow | other => cases hop

theorem arithmetic_of_nonzero (hw : op.divides = true → w.isZero = false) :
    arithmetic op p u w m = ofExcept (op.apply u w) m := by
  cases op with
  | div | mod =>
    have hequals : ¬w.equals (.int 0) = true := by
      rw [Value.equals_zero, hw rfl]
      exact Bool.false_ne_true
    rw [arithmetic, if_neg hequals]
  | add | sub | mul | pow | other => rfl

/-- An operator with a divisor never ends with a fault of an operator on zero. -/
theorem arithmetic_faults (hop : op.divides = true) {f : Fault} {m' : Machine}
    (h : arithmetic op p u w m = .error f m') : f.isOfZero = false := by
  by_cases hw : w.isZero = true
  · rw [arithmetic_of_zero hop hw] at h
    cases h
    rfl
  · rw [arithmetic_of_nonzero fun _ => Bool.eq_false_iff.mpr hw] at h
    cases happly : op.apply u w with
    | ok v =>
      rw [happly] at h
      cases h
    | error f' =>
      rw [happly] at h
      cases h
      have hfault : (!f.isOfZero) = true := Arithmetic.apply_faults hop u w f happly
      simpa using hfault

/-- An operation on two expressions without calls that have values. -/
theorem eval_operands (hp : a.pos? = some p) (hu : eval i a m = .ok u m)
    (hw : eval i b m = .ok w m) : eval i (.arithmetic op a b) m = arithmetic op p u w m := by
  rw [eval_arithmetic op hp, EStateM.bind_of_ok hu, EStateM.bind_of_ok hw]

/-- An operation on two integers, with a divisor that is not zero. -/
theorem eval_ints {x y k : Int} (hp : a.pos? = some p) (hu : eval i a m = .ok u m)
    (hw : eval i b m = .ok w m) (hx : u.number? = some (.int x)) (hy : w.number? = some (.int y))
    (hdivisor : op.divides = true → y ≠ 0) (hk : op.onInts x y = .ok (.int k)) :
    eval i (.arithmetic op a b) m = .ok (.int k) m := by
  have hnonzero : op.divides = true → w.isZero = false := fun hop =>
    Bool.eq_false_iff.mpr fun hzero => hdivisor hop ((Value.isZero_of_int hy).mp hzero)
  rw [eval_operands hp hu hw, arithmetic_of_nonzero hnonzero, Arithmetic.apply_of_ints hx hy, hk]
  rfl

/-- **Division and remainder of integers fit together.** Let `a` and `b` be expressions without
calls whose values are integers or truth values.

If the value of `b` is not zero, then `(a / b) * b + a % b` has a value that equals that of `a`, and
the value of `a % b` is nearer to zero than that of `b` and is zero or has its sign. If it is zero,
then `a / b` and `a % b` report once, with the place of `a`, and stop the run; nothing else has
changed.

Whatever the two values are, a divisor that is a zero of any kind stops the run in the same way. The
operator is applied to all other divisors, and never ends with a fault of an operator on zero. -/
theorem division_and_remainder {x y : Int} (ha : a.IsExpression) (hb : b.IsExpression)
    (hu : eval i a m = .ok u m₁) (hw : eval i b m = .ok w m₂) (hx : u.number? = some (.int x))
    (hy : w.number? = some (.int y)) :
    (y ≠ 0 →
      eval i (.arithmetic .add (.arithmetic .mul (.arithmetic .div a b) b)
        (.arithmetic .mod a b)) m = .ok (.int x) m ∧ (Value.int x).equals u = true ∧
      ∃ r, eval i (.arithmetic .mod a b) m = .ok (.int r) m ∧ r.natAbs < y.natAbs ∧
        (r = 0 ∨ r.sign = y.sign)) ∧
    (y = 0 → ∃ p, a.pos? = some p ∧ ∀ op : Arithmetic, op.divides = true →
      eval i (.arithmetic op a b) m =
        .error .stopped { m with reports := m.reports ++ [op.zeroReport p] }) ∧
    ∀ (op : Arithmetic) (p : Pos) (u w : Value) (m : Machine), op.divides = true →
      (w.isZero = true → arithmetic op p u w m =
        .error .stopped { m with reports := m.reports ++ [op.zeroReport p] }) ∧
      (w.isZero = false → arithmetic op p u w m = ofExcept (op.apply u w) m) ∧
      ∀ f m', arithmetic op p u w m = .error f m' → f.isOfZero = false := by
  cases state_of_eval ha hu
  cases state_of_eval hb hw
  obtain ⟨p, hp⟩ := ha.exists_pos
  refine ⟨fun hy0 => ?_, fun hy0 => ⟨p, hp, fun op hop => ?_⟩, fun op p u w m hop => ?_⟩
  · have hquotient : eval i (.arithmetic .div a b) m = .ok (.int (x.fdiv y)) m :=
      eval_ints hp hu hw hx hy (fun _ => hy0) rfl
    have hremainder : eval i (.arithmetic .mod a b) m = .ok (.int (x.fmod y)) m :=
      eval_ints hp hu hw hx hy (fun _ => hy0) rfl
    have hproduct : eval i (.arithmetic .mul (.arithmetic .div a b) b) m =
        .ok (.int (x.fdiv y * y)) m :=
      eval_ints (u := .int (x.fdiv y)) hp hquotient hw rfl hy (fun h => by cases h) rfl
    have hsum : eval i (.arithmetic .add (.arithmetic .mul (.arithmetic .div a b) b)
        (.arithmetic .mod a b)) m = .ok (.int (x.fdiv y * y + x.fmod y)) m :=
      eval_ints (u := .int (x.fdiv y * y)) (w := .int (x.fmod y)) hp hproduct hremainder rfl rfl
        (fun h => by cases h) rfl
    rw [Int.fdiv_mul_add_fmod] at hsum
    exact ⟨hsum, Value.equals_of_int hx, _, hremainder, fmod_bounds x hy0⟩
  · rw [eval_operands hp hu hw]
    exact arithmetic_of_zero hop ((Value.isZero_of_int hy).mpr hy0)
  · exact ⟨arithmetic_of_zero hop, fun hw => arithmetic_of_nonzero fun _ => hw,
      fun _ _ => arithmetic_faults hop⟩

/-- A machine in which `x` is minus seven. -/
def minusSeven : Machine :=
  { scopes := Scopes.define {} Scopes.root "x" (.int (-7)) }

/-- `x`, at its place in an expression. -/
def dividend : Node :=
  .identifier "x" ⟨1, 4⟩

/-- `2`, at its place in an expression. -/
def twoLiteral : Node :=
  .literal .int (.int 2) ⟨1, 8⟩

/-- `false`, at its place in an expression. -/
def falseLiteral : Node :=
  .literal .bool (.bool false) ⟨1, 8⟩

/-- Minus seven divided by two, and its remainder, which is not negative; and minus seven divided by
`false`, which is zero. -/
theorem minusSeven_division_and_remainder :
    eval Scopes.root (.arithmetic .add
      (.arithmetic .mul (.arithmetic .div dividend twoLiteral) twoLiteral)
      (.arithmetic .mod dividend twoLiteral)) minusSeven = .ok (.int (-7)) minusSeven ∧
    (∃ r, eval Scopes.root (.arithmetic .mod dividend twoLiteral) minusSeven =
      .ok (.int r) minusSeven ∧ r.natAbs < 2 ∧ (r = 0 ∨ r.sign = 1)) ∧
    eval Scopes.root (.arithmetic .div dividend falseLiteral) minusSeven =
      .error .stopped { minusSeven with reports := [.zeroDivision ⟨1, 4⟩] } := by
  have hx : dividend.IsExpression := trivial
  have htwo : twoLiteral.IsExpression := ⟨"int", rfl, rfl⟩
  have hfalse : falseLiteral.IsExpression := ⟨"bool", rfl, rfl⟩
  have hseven : eval Scopes.root dividend minusSeven = .ok (.int (-7)) minusSeven := by
    with_unfolding_all rfl
  obtain ⟨hnonzero, -, -⟩ :=
    division_and_remainder hx htwo hseven (eval_literal (by decide)) rfl rfl
  obtain ⟨hsum, -, hremainder⟩ := hnonzero (by decide)
  obtain ⟨-, hzero, -⟩ :=
    division_and_remainder hx hfalse hseven (eval_literal (by decide)) rfl rfl
  obtain ⟨p, hp, hstops⟩ := hzero rfl
  cases hp
  exact ⟨hsum, hremainder, hstops .div rfl⟩

end Run

end Scriptlet
