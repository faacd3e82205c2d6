import Scriptlet.Decimal.Layout
import Scriptlet.Proofs.TokenShape

/-! # Words and how they are written

A word is a token without its place. Numbers are written in decimal, those with a fraction without
an exponent, texts between quotes with their line breaks and tabulators escaped, and all other words
as what they say. Every word that can be written (`Word.Writable`) can be read back: the facts about
characters, numbers and quotes that this needs are proved here, the scanner's part follows in
`SourceText`.
-/
namespace Scriptlet

open Text

/-- A token without its place. -/
structure Word where
  /-- What kind of word it is. -/
  kind : TokenKind
  /-- What it says. -/
  content : TokenContent
deriving DecidableEq

/-- The word that a token is. -/
def Token.word (t : Token) : Word :=
  ⟨t.kind, t.content⟩

namespace Word

/-- The sign or keyword of a kind. -/
def fixed (k : TokenKind) : Word :=
  ⟨k, .text (k.spelling?.getD "")⟩

/-- A line break. -/
def newline : Word :=
  ⟨.newline, .text "\\n"⟩

/-! ## Texts between quotes -/

/-- A text with its line breaks and tabulators escaped. -/
def escape : List Char → List Char
  | [] => []
  | c :: cs =>
    if c = '\n' then '\\' :: 'n' :: escape cs
    else if c = '\t' then '\\' :: 't' :: escape cs
    else c :: escape cs

/-- The quote that a text is written with. -/
def quoteOf (cs : List Char) : Char :=
  if '"' ∈ cs then '\'' else '"'

/-- A text that can be written between quotes: it lacks one of the two, and no backslash in it would
be taken for the beginning of a line break or a tabulator. -/
def Quotable (s : String) : Prop :=
  ('"' ∉ s.toList ∨ '\'' ∉ s.toList) ∧
    ¬ ['\\', 'n'] <:+: s.toList ∧ ¬ ['\\', 't'] <:+: s.toList

/-! ## Names -/

/-- A letter, and letters, digits, numerals and underscores behind it. -/
def IsIdentifier (x : String) : Prop :=
  ∃ c cs, x.toList = c :: cs ∧ isLetter c = true ∧ ∀ d ∈ cs, Scanner.isNamePart d = true

/-- A name is no keyword. -/
def IsName (x : String) : Prop :=
  IsIdentifier x ∧ Scanner.keywords.lookup x = none

/-! ## Numbers with a point -/

/-- A floating-point number with a point and no exponent, whatever its size. -/
def fractionText (x : Float) : String :=
  Decimal.Style.magnitude ⟨-400, 400, ".0"⟩ x

/-- Digits with a point between them. -/
def HasPoint (cs : List Char) : Prop :=
  ∃ c whole d fraction, cs = c :: (whole ++ '.' :: d :: fraction) ∧
    (∀ e ∈ c :: whole, isDigit e = true) ∧ ∀ e ∈ d :: fraction, isDigit e = true

/-- A number that can be written with a point: it is read from its digits. -/
def IsFraction (x : Float) : Prop :=
  HasPoint (fractionText x).toList ∧ Decimal.readFloat? (fractionText x) = some x

example : IsFraction 2.5 :=
  ⟨⟨'2', [], '5', [], by decide +kernel, List.all_eq_true.mp (by decide +kernel),
    List.all_eq_true.mp (by decide +kernel)⟩, by decide +kernel⟩

/-! ## All words -/

/-- How a word is written. -/
def chars : Word → List Char
  | ⟨.number, .int n⟩ => n.toNat.repr.toList
  | ⟨.number, .float x⟩ => (fractionText x).toList
  | ⟨.text, .text s⟩ => quoteOf s.toList :: (escape s.toList ++ [quoteOf s.toList])
  | ⟨_, .text s⟩ => s.toList
  | _ => []

/-- The words that can be written on a line. -/
inductive Writable : Word → Prop
  | number (n : Nat) : Writable ⟨.number, .int n⟩
  | fraction {x : Float} (h : IsFraction x) : Writable ⟨.number, .float x⟩
  | text {s : String} (h : Quotable s) : Writable ⟨.text, .text s⟩
  | name {x : String} (h : IsName x) : Writable ⟨.identifier, .text x⟩
  | fixed {k : TokenKind} (h : k.spelling?.isSome) : Writable (Word.fixed k)

end Word

namespace TokenKind

theorem spelling?_mem {k : TokenKind} {x : String} (h : k.spelling? = some x) :
    (x, k) ∈ Scanner.signs ∨ (x, k) ∈ Scanner.keywords := by
  obtain ⟨entry, hfind, rfl⟩ := Option.map_eq_some_iff.mp h
  have hk := List.find?_some hfind
  rw [decide_eq_true_eq] at hk
  rw [← hk]
  exact List.mem_append.mp (List.mem_of_find?_eq_some hfind)

end TokenKind

namespace Word

theorem fixed_of_spelling {k : TokenKind} {x : String} (h : k.spelling? = some x) :
    Word.fixed k = ⟨k, .text x⟩ := by
  rw [Word.fixed, h]
  rfl

theorem chars_of_spelling {k : TokenKind} {x : String} (h : k.spelling? = some x) :
    chars ⟨k, .text x⟩ = x.toList := by
  cases k with
  | number | text | newline | endOfFile => cases h
  | _ => rfl

/-- Keywords are written like names. -/
theorem isIdentifier_of_keyword {x : String} {k : TokenKind} (h : (x, k) ∈ Scanner.keywords) :
    IsIdentifier x ∧ Scanner.keywords.lookup x = some k := by
  have hall : ∀ entry ∈ Scanner.keywords, entry.1.toList ≠ [] ∧
      entry.1.toList.head?.all isLetter = true ∧
      entry.1.toList.tail.all Scanner.isNamePart = true ∧
      Scanner.keywords.lookup entry.1 = some entry.2 := by decide +kernel
  obtain ⟨hne, hfirst, hrest, hlookup⟩ := hall (x, k) h
  obtain ⟨c, cs, hxs⟩ := List.exists_cons_of_ne_nil hne
  rw [hxs] at hfirst hrest
  exact ⟨⟨c, cs, hxs, hfirst, List.all_eq_true.mp hrest⟩, hlookup⟩

end Word

/-! ## Characters -/

namespace Text

/-- Among the first characters, only those of the two alphabets are letters. -/
theorem isLetter_bounds {c : Char} (h : isLetter c = true) :
    (65 ≤ c.toNat ∧ c.toNat ≤ 90) ∨ (97 ≤ c.toNat ∧ c.toNat ≤ 122) ∨ 170 ≤ c.toNat := by
  have htable : ∀ range ∈ letters, range = (65, 90) ∨ range = (97, 122) ∨ 170 ≤ range.1 := by
    decide +kernel
  obtain ⟨range, hmem, hlow, hhigh⟩ := (letters.contains_iff c).mp h
  rcases htable range hmem with rfl | rfl | hstart
  · exact .inl ⟨hlow, hhigh⟩
  · exact .inr (.inl ⟨hlow, hhigh⟩)
  · exact .inr (.inr (Nat.le_trans hstart hlow))

theorem exists_zero_of_decimalValue? {c : Char} {d : Nat} (h : decimalValue? c = some d) :
    ∃ z ∈ decimalZeros, z ≤ c.toNat ∧ c.toNat < z + 10 := by
  obtain ⟨z, hz, -⟩ := Option.map_eq_some_iff.mp h
  have hrange := List.find?_some hz
  simp only [Bool.and_eq_true, decide_eq_true_eq] at hrange
  exact ⟨z, List.mem_of_find?_eq_some hz, hrange⟩

/-- A digit is in one of the runs of ten, or in the table of the others. -/
theorem isDigit_cases {c : Char} (h : isDigit c = true) :
    (∃ z ∈ decimalZeros, z ≤ c.toNat ∧ c.toNat < z + 10) ∨ otherDigits.contains c = true := by
  rw [isDigit, Bool.or_eq_true] at h
  rcases h with h | h
  · obtain ⟨d, hd⟩ := Option.isSome_iff_exists.mp h
    exact .inl (exists_zero_of_decimalValue? hd)
  · exact .inr h

/-- Among the first characters, only `0` to `9` are digits. -/
theorem isDigit_bounds {c : Char} (h : isDigit c = true) :
    (48 ≤ c.toNat ∧ c.toNat ≤ 57) ∨ 178 ≤ c.toNat := by
  have hzeros : ∀ z ∈ decimalZeros, z = 48 ∨ 178 ≤ z := by decide
  have hothers : ∀ range ∈ otherDigits, 178 ≤ range.1 := by decide
  rcases isDigit_cases h with ⟨z, hz, hlow, hhigh⟩ | h
  · rcases hzeros z hz with rfl | hz
    · exact .inl ⟨hlow, by omega⟩
    · exact .inr (Nat.le_trans hz hlow)
  · obtain ⟨range, hmem, hlow, -⟩ := (otherDigits.contains_iff c).mp h
    exact .inr (Nat.le_trans (hothers range hmem) hlow)

/-- No letter is a digit. -/
theorem isDigit_of_isLetter {c : Char} (h : isLetter c = true) : isDigit c = false := by
  -- the ranges of the tables do not overlap, and it is the tables that are gone through
  have hzeros : (letters.all fun range => decimalZeros.all fun z =>
      range.2.blt z || (z + 10).ble range.1) = true := by decide +kernel
  have hothers : (letters.all fun range => otherDigits.all fun other =>
      range.2.blt other.1 || other.2.blt range.1) = true := by decide +kernel
  obtain ⟨range, hmem, hlow, hhigh⟩ := (letters.contains_iff c).mp h
  cases hd : isDigit c with
  | false => rfl
  | true =>
    rcases isDigit_cases hd with ⟨z, hz, hlow', hhigh'⟩ | hd
    · have := List.all_eq_true.mp (List.all_eq_true.mp hzeros range hmem) z hz
      simp only [Bool.or_eq_true, Nat.blt_eq, Nat.ble_eq] at this
      omega
    · obtain ⟨other, hother, hlow', hhigh'⟩ := (otherDigits.contains_iff c).mp hd
      have := List.all_eq_true.mp (List.all_eq_true.mp hothers range hmem) other hother
      simp only [Bool.or_eq_true, Nat.blt_eq] at this
      omega

end Text

namespace Scanner

/-- A name has no blanks and no line breaks in it. -/
theorem isNamePart_bounds {c : Char} (h : isNamePart c = true) : 48 ≤ c.toNat := by
  have hnumerals : ∀ range ∈ numerals, 48 ≤ range.1 := by decide +kernel
  simp only [isNamePart, isAlphanumeric, Bool.or_eq_true, decide_eq_true_eq] at h
  rcases h with ((h | h) | h) | rfl
  · have := isLetter_bounds h
    omega
  · have := isDigit_bounds h
    omega
  · obtain ⟨range, hmem, hlow, -⟩ := (numerals.contains_iff c).mp h
    exact Nat.le_trans (hnumerals range hmem) hlow
  · decide

/-- Whether a sign begins with this character. -/
def beginsSign (c : Char) : Bool :=
  signs.any fun sign => sign.1.toList.head? = some c

/-- No sign begins with a letter or a digit. -/
theorem beginsSign_bounds {c : Char} (h : beginsSign c = true) :
    c.toNat < 48 ∨ (58 ≤ c.toNat ∧ c.toNat < 65) ∨ (123 ≤ c.toNat ∧ c.toNat < 128) := by
  have hall : ∀ sign ∈ signs, sign.1.toList.head?.all (fun d =>
      d.toNat < 48 ∨ (58 ≤ d.toNat ∧ d.toNat < 65) ∨ (123 ≤ d.toNat ∧ d.toNat < 128)) = true := by
    decide
  obtain ⟨sign, hmem, hhead⟩ := List.any_eq_true.mp h
  have hbounds := hall sign hmem
  rw [decide_eq_true_eq.mp hhead] at hbounds
  exact decide_eq_true_eq.mp hbounds

theorem find_sign_eq_none {c : Char} (cs : List Char) (h : beginsSign c = false) :
    (signs.find? fun sign => sign.1.toList.isPrefixOf (c :: cs)) = none := by
  have hne : ∀ sign ∈ signs, sign.1.toList ≠ [] := by decide
  rw [List.find?_eq_none]
  intro sign hmem hprefix
  obtain ⟨d, ds, hsign⟩ := List.exists_cons_of_ne_nil (hne sign hmem)
  rw [hsign, List.isPrefixOf_cons_cons, Bool.and_eq_true, beq_iff_eq] at hprefix
  have : beginsSign c = true := by
    refine List.any_eq_true.mpr ⟨sign, hmem, ?_⟩
    rw [hsign, List.head?_cons, hprefix.1, decide_eq_true rfl]
  rw [h] at this
  cases this

end Scanner

/-! ## Escapes -/

namespace Word

theorem unescape_cons {c : Char} {cs : List Char}
    (h : c = '\\' → ∀ d ∈ cs.head?, d ≠ 'n' ∧ d ≠ 't') :
    Scanner.unescape (c :: cs) = c :: Scanner.unescape cs := by
  rw [Scanner.unescape]
  · rintro rest rfl rfl
    exact (h rfl _ rfl).1 rfl
  · rintro rest rfl rfl
    exact (h rfl _ rfl).2 rfl

/-- What comes first in an escaped text comes first in the text, or is a backslash. -/
theorem head?_escape {cs : List Char} {d : Char} (h : d ∈ (escape cs).head?) :
    d = '\\' ∨ d ∈ cs.head? := by
  cases cs with
  | nil => cases h
  | cons c cs =>
    rw [escape] at h
    split at h
    · cases h
      exact .inl rfl
    split at h
    · cases h
      exact .inl rfl
    · cases h
      exact .inr rfl

/-- **Escaping is undone** if no backslash in the text looks like an escape. -/
theorem unescape_escape {cs : List Char} (hn : ¬ ['\\', 'n'] <:+: cs)
    (ht : ¬ ['\\', 't'] <:+: cs) : Scanner.unescape (escape cs) = cs := by
  induction cs with
  | nil => rfl
  | cons c cs ih =>
    have ih := ih (fun h => hn (List.infix_cons h)) (fun h => ht (List.infix_cons h))
    rw [escape]
    split
    · rename_i hc
      rw [Scanner.unescape, ih, hc]
    split
    · rename_i hc
      rw [Scanner.unescape, ih, hc]
    · -- a backslash of the text itself: what stands behind it must not make an escape of it
      rw [unescape_cons, ih]
      rintro rfl d hd
      rcases head?_escape hd with rfl | hd
      · decide
      · obtain ⟨ds, rfl⟩ : ∃ ds, cs = d :: ds := by
          cases cs with
          | nil => cases hd
          | cons e es =>
            cases hd
            exact ⟨es, rfl⟩
        constructor
        · rintro rfl
          exact hn (List.prefix_append ['\\', 'n'] ds).isInfix
        · rintro rfl
          exact ht (List.prefix_append ['\\', 't'] ds).isInfix

/-- A character of an escaped text is one of the text other than a line break, or part of an
escape. -/
theorem mem_escape {cs : List Char} {d : Char} (h : d ∈ escape cs) :
    (d ∈ cs ∧ d ≠ '\n') ∨ d = '\\' ∨ d = 'n' ∨ d = 't' := by
  induction cs with
  | nil => cases h
  | cons c cs ih =>
    rw [escape] at h
    split at h
    · simp only [List.mem_cons] at h ⊢
      rcases h with h | h | h
      · exact .inr (.inl h)
      · exact .inr (.inr (.inl h))
      · exact (ih h).imp_left fun hd => ⟨.inr hd.1, hd.2⟩
    split at h
    · simp only [List.mem_cons] at h ⊢
      rcases h with h | h | h
      · exact .inr (.inl h)
      · exact .inr (.inr (.inr h))
      · exact (ih h).imp_left fun hd => ⟨.inr hd.1, hd.2⟩
    · rename_i hc _
      rcases List.mem_cons.mp h with rfl | h
      · exact .inl ⟨List.mem_cons_self, hc⟩
      · exact (ih h).imp_left fun hd => ⟨List.mem_cons_of_mem _ hd.1, hd.2⟩

/-- Escaping brings no quotes into a text. -/
theorem not_mem_escape {q : Char} {cs : List Char} (hq : q = '"' ∨ q = '\'') (h : q ∉ cs) :
    q ∉ escape cs := by
  intro hmem
  rcases mem_escape hmem with hin | hother
  · exact h hin.1
  · rcases hq with rfl | rfl <;> revert hother <;> decide

/-- A text is written with a quote that is not in it. -/
theorem quoteOf_spec {s : String} (h : Quotable s) :
    (quoteOf s.toList = '"' ∨ quoteOf s.toList = '\'') ∧ quoteOf s.toList ∉ s.toList := by
  rw [quoteOf]
  split
  · rename_i hd
    exact ⟨.inr rfl, h.1.resolve_left fun hn => hn hd⟩
  · rename_i hd
    exact ⟨.inl rfl, hd⟩

end Word

/-! ## Numbers -/

namespace Decimal

/-- The decimal digits have their values. -/
theorem decimalValue?_digitChar {d : Nat} (h : d < 10) :
    Text.decimalValue? d.digitChar = some d := by
  have hall : ∀ d < 10, Text.decimalValue? (Nat.digitChar d) = some d := by decide
  exact hall d h

theorem readDigits_cons {c : Char} {d : Nat} (h : Text.decimalValue? c = some d) (value count : Nat)
    (cs : List Char) :
    readDigits value count (c :: cs) = readDigits (10 * value + d) (count + 1) cs := by
  conv => lhs; unfold readDigits
  simp only [h]

theorem readDigits_concat {d : Nat} (hd : d < 10) (cs : List Char)
    (hcs : ∀ c ∈ cs, (Text.decimalValue? c).isSome) :
    ∀ value count v k, readDigits value count cs = ⟨v, k, []⟩ →
      readDigits value count (cs ++ [d.digitChar]) = ⟨10 * v + d, k + 1, []⟩ := by
  induction cs with
  | nil =>
    intro value count v k h
    cases h
    exact readDigits_cons (decimalValue?_digitChar hd) value count []
  | cons c cs ih =>
    intro value count v k h
    obtain ⟨e, he⟩ := Option.isSome_iff_exists.mp (hcs c List.mem_cons_self)
    rw [readDigits_cons he] at h
    rw [List.cons_append, readDigits_cons he]
    exact ih (fun c hc => hcs c (List.mem_cons_of_mem _ hc)) _ _ _ _ h

theorem isSome_decimalValue?_of_mem_toDigits {n : Nat} {c : Char} (h : c ∈ Nat.toDigits 10 n) :
    (Text.decimalValue? c).isSome := by
  induction n using Nat.strongRecOn generalizing c with
  | ind n ih =>
    by_cases hn : n < 10
    · rw [Nat.toDigits_of_lt_base hn, List.mem_singleton] at h
      rw [h, decimalValue?_digitChar hn]
      rfl
    · rw [Nat.toDigits_of_base_le (by decide) (Nat.le_of_not_lt hn)] at h
      rcases List.mem_append.mp h with h | h
      · exact ih _ (Nat.div_lt_self (by omega) (by decide)) h
      · rw [List.mem_singleton.mp h, decimalValue?_digitChar (Nat.mod_lt _ (by decide))]
        rfl

/-- The digits of a number have its value. -/
theorem readDigits_toDigits (n : Nat) :
    readDigits 0 0 (Nat.toDigits 10 n) = ⟨n, (Nat.toDigits 10 n).length, []⟩ := by
  induction n using Nat.strongRecOn with
  | ind n ih =>
    by_cases hn : n < 10
    · rw [Nat.toDigits_of_lt_base hn]
      rw [readDigits_cons (decimalValue?_digitChar hn), readDigits, Nat.mul_zero, Nat.zero_add]
      rfl
    · rw [Nat.toDigits_of_base_le (by decide) (Nat.le_of_not_lt hn),
        readDigits_concat (Nat.mod_lt _ (by decide)) _
          (fun c hc => isSome_decimalValue?_of_mem_toDigits hc) 0 0 _ _
          (ih _ (Nat.div_lt_self (by omega) (by decide))), Nat.div_add_mod, List.length_append]
      rfl

theorem isDigit_of_mem_toDigits {n : Nat} {c : Char} (h : c ∈ Nat.toDigits 10 n) :
    Text.isDigit c = true := by
  rw [Text.isDigit, isSome_decimalValue?_of_mem_toDigits h, Bool.true_or]

/-- Digits are no blanks, so none are dropped. -/
theorem trimBlanks_of_decimal {cs : List Char} (h : ∀ c ∈ cs, (Text.decimalValue? c).isSome) :
    Text.trimBlanks cs = cs := by
  have hzeros : ∀ z ∈ Text.decimalZeros, ∀ range ∈ Text.blanks,
      range.2 < z ∨ z + 10 ≤ range.1 := by decide
  have hblank : ∀ c ∈ cs, Text.isBlank c = false := by
    intro c hc
    obtain ⟨d, hd⟩ := Option.isSome_iff_exists.mp (h c hc)
    obtain ⟨z, hz, hlow, hhigh⟩ := Text.exists_zero_of_decimalValue? hd
    cases hb : Text.isBlank c with
    | false => rfl
    | true =>
      obtain ⟨range, hrange, hlow', hhigh'⟩ := (Text.blanks.contains_iff c).mp hb
      have := hzeros z hz range hrange
      omega
  have hdrop : ∀ {ds : List Char}, (∀ c ∈ ds, Text.isBlank c = false) →
      ds.dropWhile Text.isBlank = ds := by
    intro ds hds
    cases ds with
    | nil => rfl
    | cons d ds => rw [List.dropWhile_cons, hds d List.mem_cons_self, if_neg Bool.false_ne_true]
  rw [Text.trimBlanks, hdrop hblank, hdrop (fun c hc => hblank c (List.mem_reverse.mp hc)),
    List.reverse_reverse]

/-- **A number that is written in decimal is read back.** -/
theorem readInteger?_repr (n : Nat) : readInteger? n.repr = some (n : Int) := by
  have hdigits : ∀ c ∈ Nat.toDigits 10 n, (Text.decimalValue? c).isSome :=
    fun c hc => isSome_decimalValue?_of_mem_toDigits hc
  have hne : Nat.toDigits 10 n ≠ [] := Nat.toDigits_ne_nil
  -- no sign has a value as a digit
  have hsign : readSign (Nat.toDigits 10 n) = (false, Nat.toDigits 10 n) := by
    cases hcs : Nat.toDigits 10 n with
    | nil => rfl
    | cons c cs =>
      have hc := hdigits c (hcs ▸ List.mem_cons_self)
      rw [readSign]
      · rintro rest ⟨⟩
        revert hc
        decide
      · rintro rest ⟨⟩
        revert hc
        decide
  have hcount : (Nat.toDigits 10 n).length ≠ 0 := fun h => hne (List.eq_nil_of_length_eq_zero h)
  rw [readInteger?, Nat.toList_repr, trimBlanks_of_decimal hdigits, hsign]
  simp only [readDigits_toDigits, hcount, ne_eq, not_true_eq_false, or_self, if_false,
    Bool.false_eq_true]

end Decimal

end Scriptlet
