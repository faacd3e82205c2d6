import Scriptlet.Node
import Scriptlet.Value.Arithmetic

/-! # The faults of values and nodes

A run is stopped behind a report, and in no other way (`Fault.stopped`). Operations on values have
faults of their own, but they report nothing: none of them ends with this one. The same holds for
what is asked of a node. A node can lack a part, but then it is the node that is at fault, and not
what keeps the reports (`Fault.isLocal`). Writing a value by a format text has fewer faults still
(`Fault.isOfFormat`).
-/
namespace Scriptlet

/-- Whether the fault can be that of a value or of a node: it is neither that the run was stopped,
nor that the keeper of the reports was asked for something that it has not. -/
def Fault.isLocal : Fault → Bool
  | .stopped => false
  | .missingField owner _ => owner ≠ "ErrorReporter"
  | _ => true

/-- What is computed is a value, or a fault with the property. -/
def FaultsAre (P : Fault → Bool) {α : Type} (e : Except Fault α) : Prop :=
  ∀ f, e = .error f → P f = true

/-- What is computed is a value, or a fault of a value or of a node. -/
abbrev IsLocal {α : Type} (e : Except Fault α) : Prop :=
  FaultsAre Fault.isLocal e

section rules

variable {α β : Type} {P : Fault → Bool}

namespace FaultsAre

theorem ok (a : α) : FaultsAre P (.ok a : Except Fault α) := nofun

theorem error {f : Fault} (h : P f = true) : FaultsAre P (.error f : Except Fault α) := by
  rintro _ ⟨⟩
  exact h

theorem mono {Q : Fault → Bool} {e : Except Fault α} (h : FaultsAre P e)
    (hPQ : ∀ f, P f = true → Q f = true) : FaultsAre Q e :=
  fun f hf => hPQ f (h f hf)

theorem bind {e : Except Fault α} {f : α → Except Fault β} (he : FaultsAre P e)
    (hf : ∀ a, FaultsAre P (f a)) : FaultsAre P (e >>= f) := by
  cases e with
  | ok a => exact hf a
  | error fault => exact error (he fault rfl)

theorem map {e : Except Fault α} (he : FaultsAre P e) (f : α → β) : FaultsAre P (e.map f) := by
  cases e with
  | ok a => exact ok (f a)
  | error fault => exact error (he fault rfl)

theorem ite {c : Prop} [Decidable c] {d e : Except Fault α} (hd : FaultsAre P d)
    (he : FaultsAre P e) : FaultsAre P (if c then d else e) := by
  split
  · exact hd
  · exact he

end FaultsAre

theorem isLocal_ok (a : α) : IsLocal (.ok a : Except Fault α) := .ok a

theorem isLocal_error {f : Fault} (h : f.isLocal = true) : IsLocal (.error f : Except Fault α) :=
  .error h

end rules

/-! ## Numbers -/

namespace Number

variable {P : Fault → Bool}

theorem floatOfInt_faults (h : P .integerTooLarge = true) (n : Int) : FaultsAre P (floatOfInt n) :=
  .ite (.error h) (.ok _)

theorem toComplex_faults (h : P .integerTooLarge = true) (a : Number) :
    FaultsAre P a.toComplex := by
  cases a with
  | int n => exact (floatOfInt_faults h n).map _
  | float | complex => exact .ok _

theorem toFloat_faults (h : P .integerTooLarge = true) (a : Number) : FaultsAre P a.toFloat := by
  cases a with
  | int n => exact floatOfInt_faults h n
  | float | complex => exact .ok _

/-- The only fault of bringing two numbers to one kind is that an integer is too large. -/
theorem align_faults (h : P .integerTooLarge = true) (a b : Number) : FaultsAre P (a.align b) := by
  have hcomplex : FaultsAre P (do return Aligned.complexes (← a.toComplex) (← b.toComplex)) :=
    (toComplex_faults h a).bind fun _ => (toComplex_faults h b).bind fun _ => .ok _
  have hfloat : FaultsAre P (do return Aligned.floats (← a.toFloat) (← b.toFloat)) :=
    (toFloat_faults h a).bind fun _ => (toFloat_faults h b).bind fun _ => .ok _
  unfold align
  split
  · exact .ok _
  · exact hcomplex
  · exact hcomplex
  · exact hfloat

theorem isLocal_complexPow (a b : Complex.Parts) : IsLocal (Complex.pow a b) := by
  rw [Complex.pow]
  split
  · exact isLocal_error rfl
  · exact .ite (isLocal_error rfl) (isLocal_ok _)

theorem isLocal_signedPower (negative : Bool) (x y : Float) :
    IsLocal (signedPower negative x y) :=
  .ite (isLocal_error rfl) (isLocal_ok _)

theorem isLocal_floatPower (x y : Float) : IsLocal (floatPower x y) := by
  have hok : ∀ v, IsLocal (.ok v : Except Fault Value) := isLocal_ok
  unfold floatPower
  refine .ite (hok _) (.ite (hok _) (.ite (hok _) (.ite (hok _) (.ite ?_ ?_))))
  · exact .ite (hok _) (hok _)
  refine .ite (.ite (isLocal_error rfl) (hok _)) (.ite ?_ (.ite (hok _) ?_))
  · exact .ite ((isLocal_complexPow _ _).map _)
      (.ite (hok _) ((isLocal_signedPower _ _ _).map _))
  · exact (isLocal_signedPower _ _ _).map _

theorem isLocal_intPower (m n : Int) : IsLocal (intPower m n) := by
  refine .ite (isLocal_ok _) ?_
  exact (floatOfInt_faults rfl m).bind fun _ => (floatOfInt_faults rfl n).bind fun _ =>
    isLocal_floatPower _ _

end Number

/-! ## Texts as formats -/

/-- Whether the fault can be that of writing a value by a format text. -/
def Fault.isOfFormat : Fault → Bool
  | .format _ | .integerTooLarge | .exhausted => true
  | _ => false

namespace Value

/-- What is computed is a value, or a fault of writing a value by a format text. -/
abbrev IsFormatted {α : Type} (e : Except Fault α) : Prop :=
  FaultsAre Fault.isOfFormat e

theorem isFormatted_error {α : Type} (cause : FormatFault) :
    IsFormatted (.error (.format cause) : Except Fault α) :=
  .error rfl

theorem isFormatted_take (s : Supply) : IsFormatted s.take :=
  .ite (isFormatted_error _) (.ok _)

theorem isFormatted_next (c : FormatCursor) : IsFormatted c.next := by
  rw [FormatCursor.next]
  split
  · exact isFormatted_error _
  · exact .ok _

theorem isFormatted_readKey : ∀ (text : List Char) (depth : Nat) (name : List Char) (index : Nat),
    IsFormatted (readKey depth name index text)
  | [], _, _, _ => isFormatted_error _
  | _ :: rest, _, _, _ =>
    .ite (.ite (.ok _) (isFormatted_readKey rest _ _ _)) (isFormatted_readKey rest _ _ _)

theorem isFormatted_readField (c : FormatCursor) (s : Supply) : IsFormatted (readField c s) := by
  unfold readField
  split
  · split
    · exact isFormatted_error _
    · refine (isFormatted_readKey _ _ _ _).bind ?_
      rintro ⟨name, c⟩
      dsimp only
      split
      · exact isFormatted_error _
      · exact .ok _
  · exact .ok _

theorem isFormatted_readFlags : ∀ (text : List Char) (d : Directive) (index : Nat),
    IsFormatted (readFlags d index text)
  | [], _, _ => isFormatted_error _
  | ch :: rest, d, index => by
    unfold readFlags
    split
    · exact isFormatted_readFlags rest _ _
    · exact isFormatted_readFlags rest _ _
    · exact isFormatted_readFlags rest _ _
    · exact isFormatted_readFlags rest _ _
    · exact isFormatted_readFlags rest _ _
    · exact .ok _

theorem isFormatted_readSizeDigits (b : SizeBound) : ∀ (text : List Char) (size index : Nat),
    IsFormatted (readSizeDigits b size index text)
  | [], _, _ => isFormatted_error _
  | _ :: rest, _, _ =>
    .ite (.ite (isFormatted_error _) (isFormatted_readSizeDigits b rest _ _)) (.ok _)

theorem isFormatted_readSize (ch : Char) (b : SizeBound) (c : FormatCursor) (s : Supply) :
    IsFormatted (readSize ch b c s) := by
  refine .ite ?_ (.ite ?_ (.ok _))
  · refine (isFormatted_take s).bind ?_
    rintro ⟨value, s⟩
    dsimp only
    split
    · exact isFormatted_error _
    · exact .ite ((isFormatted_next c).bind fun _ => .ok _) (isFormatted_error _)
  · exact (isFormatted_readSizeDigits b _ _ _).bind fun _ => .ok _

theorem isFormatted_readDirective (c : FormatCursor) (s : Supply) :
    IsFormatted (readDirective c s) := by
  refine (isFormatted_readField c s).bind ?_
  rintro ⟨c, s⟩
  refine (isFormatted_readFlags _ _ _).bind ?_
  rintro ⟨d, ch, c⟩
  refine (isFormatted_readSize _ _ _ _).bind ?_
  rintro ⟨width, ch, c, s⟩
  refine .ite ?_ (.ite ((isFormatted_next _).bind fun _ => .ok _) (.ok _))
  -- behind a point there is a precision to be read
  refine (isFormatted_next c).bind ?_
  rintro ⟨ch, c⟩
  refine (isFormatted_readSize _ _ _ _).bind ?_
  rintro ⟨size, ch, c, s⟩
  exact .ite ((isFormatted_next _).bind fun _ => .ok _) (.ok _)

theorem isFormatted_integerOf (d : Directive) (v : Value) : IsFormatted (d.integerOf v) := by
  have hformat : ∀ cause, IsFormatted (.error (.format cause) : Except Fault Int) :=
    isFormatted_error
  rw [Directive.integerOf]
  split
  · exact .ok _
  · exact .ite (hformat _) (.ite (hformat _) (.ite (hformat _) (.ok _)))
  · exact .ite (hformat _) (hformat _)

theorem isFormatted_floatOf (v : Value) : IsFormatted (floatOf v) := by
  rw [floatOf]
  split
  · exact Number.floatOfInt_faults rfl _
  · exact .ok _
  · exact isFormatted_error _

theorem isFormatted_characterOf (v : Value) : IsFormatted (characterOf v) := by
  unfold characterOf
  split
  · split
    · exact .ok _
    · exact isFormatted_error _
  · split
    · exact isFormatted_error _
    · exact .ite (.ok _) (isFormatted_error _)

theorem isFormatted_write (d : Directive) (v : Value) (index : Nat) :
    IsFormatted (d.write v index) := by
  have hinteger := (isFormatted_integerOf d v).map d.integerText
  have hfloat := (isFormatted_floatOf v).map d.floatText
  unfold Directive.write
  split <;> first
    | exact .ok _
    | exact hinteger
    | exact hfloat
    | exact (isFormatted_characterOf v).map _
    | exact isFormatted_error _

theorem isFormatted_formatLoop : ∀ (fuel : Nat) (out : String) (c : FormatCursor) (s : Supply),
    IsFormatted (formatLoop out c s fuel)
  | 0, _, _, _ => .error rfl
  | fuel + 1, out, c, s => by
    unfold formatLoop
    split
    · exact .ite (isFormatted_error _) (.ok _)
    · exact isFormatted_formatLoop fuel _ _ _
    · refine (isFormatted_readDirective _ _).bind fun _ => ?_
      refine (isFormatted_take _).bind fun _ => ?_
      refine (isFormatted_write _ _ _).bind fun _ => ?_
      exact isFormatted_formatLoop fuel _ _ _
    · exact isFormatted_formatLoop fuel _ _ _

theorem isFormatted_format (text : String) (v : Value) : IsFormatted (format text v) :=
  isFormatted_formatLoop _ _ _ _

theorem isLocal_format (text : String) (v : Value) : IsLocal (format text v) := by
  refine (isFormatted_format text v).mono fun f hf => ?_
  cases f <;> first | rfl | cases hf

end Value

/-! ## Operators -/

namespace Arithmetic

variable (op : Arithmetic)

theorem isLocal_onInts (m n : Int) : IsLocal (op.onInts m n) := by
  cases op with
  | pow => exact Number.isLocal_intPower m n
  | add | sub | mul | div | mod | other => exact isLocal_ok _

theorem isLocal_onFloats (x y : Float) : IsLocal (op.onFloats x y) := by
  cases op with
  | pow => exact Number.isLocal_floatPower x y
  | add | sub | mul | div | mod | other => exact isLocal_ok _

theorem isLocal_onComplexes (a b : Number.Complex.Parts) : IsLocal (op.onComplexes a b) := by
  cases op with
  | pow => exact (Number.isLocal_complexPow a b).map _
  | add | sub | mul | div | mod | other => exact isLocal_ok _

theorem isLocal_onNumbers (a b : Number) : IsLocal (op.onNumbers a b) := by
  refine (Number.align_faults rfl a b).bind fun aligned => ?_
  cases aligned with
  | ints m n => exact op.isLocal_onInts m n
  | floats x y => exact op.isLocal_onFloats x y
  | complexes p q => exact op.isLocal_onComplexes p q

theorem isLocal_repeatText (s : String) (count : Value) : IsLocal (repeatText s count) := by
  rw [repeatText]
  split
  · exact isLocal_error rfl
  · exact .ite (isLocal_error rfl)
      (.ite (isLocal_ok _) (.ite (isLocal_error rfl) (isLocal_ok _)))

theorem isLocal_onOthers (a b : Value) : IsLocal (op.onOthers a b) := by
  unfold onOthers
  split
  · exact isLocal_ok _
  · exact isLocal_ok _
  · exact isLocal_error rfl
  · exact isLocal_repeatText _ _
  · exact isLocal_repeatText _ _
  · exact (Value.isLocal_format _ _).map _
  · exact isLocal_error rfl

theorem isLocal_apply (a b : Value) : IsLocal (op.apply a b) := by
  unfold apply
  split
  · exact isLocal_error rfl
  · exact isLocal_error rfl
  · exact isLocal_onNumbers _ _ _
  · exact isLocal_onOthers _ _ _

end Arithmetic

theorem Sign.isLocal_apply (op : Sign) (v : Value) : IsLocal (op.apply v) := by
  unfold Sign.apply
  split
  · exact isLocal_ok _
  · exact isLocal_ok _
  · exact isLocal_ok _
  · exact isLocal_error rfl

theorem Comparison.isLocal_order (op : Comparison) (a b : Value) : IsLocal (op.order a b) := by
  unfold Comparison.order
  split
  · exact isLocal_ok _
  · split <;> first | exact isLocal_ok _ | exact isLocal_error rfl

theorem Comparison.isLocal_apply (op : Comparison) (a b : Value) : IsLocal (op.apply a b) := by
  cases op with
  | equal | different | other => exact isLocal_ok _
  | less | greater | lessEqual | greaterEqual => exact isLocal_order _ a b

/-! ## Nodes -/

namespace Node

theorem kindName_ne_errorReporter (n : Node) : n.kindName ≠ "ErrorReporter" := by
  cases n with
  | literal kind => cases kind <;> simp [kindName, LiteralKind.name]
  | raw v => cases v <;> simp [kindName, Value.kind]
  | _ => simp [kindName]

theorem isLocal_lacks {α : Type} (n : Node) (field : String) :
    IsLocal (n.lacks field : Except Fault α) :=
  isLocal_error (decide_eq_true n.kindName_ne_errorReporter)

theorem isLocal_pos (n : Node) : IsLocal n.pos := by
  rw [Node.pos]
  split
  · exact isLocal_ok _
  · exact n.isLocal_lacks _

theorem isLocal_scope (n : Node) : IsLocal n.scope := by
  cases n <;> first | exact isLocal_ok _ | exact isLocal_lacks _ _

theorem isLocal_statements (n : Node) : IsLocal n.statements := by
  cases n <;> first | exact isLocal_ok _ | exact isLocal_lacks _ _

end Node

end Scriptlet
