import Scriptlet.Proofs.LexicalGrammar

/-! # What a scan keeps

A scan goes from piece to piece. Every piece stands at the front of what has not been read
(`Piece.begins_first`). Passing over it is made up of few steps: going on along the line, beginning a
line, recording a token, reporting. A property of scanners that these steps keep is kept by every piece
(`Scanner.Keeps.pass`); signs apart, which are recorded where they begin and not where they end.
-/
namespace Scriptlet

open Text Scanner

/-! ## Pieces are cut from the front of a text -/

namespace Piece

/-- The piece stands at the front of the text, and is all of it if it is a text literal that is not
closed. -/
def Begins (p : Piece) (text : List Char) : Prop :=
  p.chars <+: text ∧ ∀ mark body, p = .openText mark body → p.chars = text

theorem begins_of_prefix {p : Piece} {text : List Char} (h : p.chars <+: text)
    (hp : ∀ mark body, p ≠ .openText mark body) : p.Begins text :=
  ⟨h, fun mark body hopen => absurd hopen (hp mark body)⟩

/-- A comment that is not closed goes on to the end. -/
theorem commentBody_of_open {ds : List Char} (h : (commentBody ds).2 = false) :
    (commentBody ds).1 = ds := by
  fun_induction commentBody ds with
  | case1 => rfl
  | case2 => cases h
  | case3 c cs _ ih => rw [ih h]

theorem begins_comment (ds : List Char) : (comment ds).Begins ('/' :: '*' :: ds) := by
  unfold comment
  split
  · rename_i hclosed
    obtain ⟨-, rest, hds⟩ := commentBody_of_closed hclosed
    refine begins_of_prefix ⟨rest, ?_⟩ (by simp)
    simp [chars, ← hds]
  · rename_i hopen
    have hall := commentBody_of_open (Bool.eq_false_iff.mpr hopen)
    refine begins_of_prefix ⟨[], ?_⟩ (by simp)
    simp [chars, hall]

theorem begins_quoted (mark : Char) (cs : List Char) : (quoted mark cs).Begins (mark :: cs) := by
  by_cases hmem : mark ∈ cs
  · obtain ⟨body, rest, rfl, hbody⟩ := List.eq_append_cons_of_mem hmem
    rw [quoted_of_closed rest hbody]
    refine begins_of_prefix ⟨rest, ?_⟩ (by simp)
    simp [chars]
  · rw [quoted, if_neg hmem]
    exact ⟨List.prefix_refl _, fun _ _ _ => rfl⟩

/-- **Every first piece stands at the front of its text.** -/
theorem begins_first (c : Char) (cs : List Char) : (first c cs).Begins (c :: cs) := by
  unfold first
  split
  · rename_i hc
    exact begins_of_prefix ⟨cs, by rw [hc]; rfl⟩ (by simp)
  split
  · rename_i hc
    exact begins_of_prefix ⟨cs, by rw [hc]; rfl⟩ (by simp)
  split
  · rename_i hopen
    obtain ⟨rfl, hhead⟩ := hopen
    obtain ⟨ds, rfl⟩ := List.head?_eq_some_iff.mp hhead
    refine begins_of_prefix ?_ (by simp)
    exact List.cons_prefix_cons.mpr ⟨rfl, List.cons_prefix_cons.mpr ⟨rfl, List.takeWhile_prefix _⟩⟩
  split
  · rename_i hopen
    obtain ⟨rfl, hhead⟩ := hopen
    obtain ⟨ds, rfl⟩ := List.head?_eq_some_iff.mp hhead
    exact begins_comment ds
  split
  · rename_i sign kind hfind
    have hstart := List.find?_some hfind
    exact begins_of_prefix (List.isPrefixOf_iff_prefix.mp hstart) (by simp)
  split
  · rename_i hdigit
    exact begins_of_prefix (lexeme_of_number hdigit rfl).2 (by simp [number])
  split
  · exact begins_quoted c cs
  split
  · rename_i hletter
    exact begins_of_prefix (lexeme_of_word hletter rfl).2 (by simp [word])
  · exact begins_of_prefix ⟨cs, rfl⟩ (by simp)

end Piece

/-! ## What has been read -/

namespace Scanner

variable {s : Scanner} {source : List Char}

@[simp] theorem rest_passChars (b : Bool) (s : Scanner) (cs : List Char) :
    (s.passChars b cs).rest = s.rest.drop cs.length := by
  have hwith := passChars_withRest b s cs s.rest
  rw [show s.withRest s.rest = s from rfl] at hwith
  rw [hwith]
  rfl

/-- The scan is one of the source: what has not been read is what follows its position. -/
def IsOf (source : List Char) (s : Scanner) : Prop :=
  s.rest = source.drop s.position

namespace IsOf

theorem advance (h : IsOf source s) (n : Nat) : IsOf source (s.advance n) := by
  show s.rest.drop n = source.drop (s.position + n)
  rw [show s.rest = source.drop s.position from h, List.drop_drop]

theorem passChars (h : IsOf source s) (b : Bool) (cs : List Char) :
    IsOf source (s.passChars b cs) := by
  show (s.passChars b cs).rest = source.drop (s.passChars b cs).position
  rw [rest_passChars, position_passChars, show s.rest = source.drop s.position from h,
    List.drop_drop]

/-- What is read next comes behind what has been read. -/
theorem take_add (h : IsOf source s) {cs : List Char} (hcs : cs <+: s.rest) :
    source.take (s.position + cs.length) = source.take s.position ++ cs := by
  obtain ⟨more, hmore⟩ := hcs
  rw [List.take_add, ← show s.rest = source.drop s.position from h, ← hmore, List.take_left]

/-- Behind the end there is nothing to read. -/
theorem take_of_rest_nil (h : IsOf source s) (hrest : s.rest = []) (n : Nat) :
    source.take (s.position + n) = source.take s.position := by
  have hall : source.length ≤ s.position := by
    rw [show s.rest = source.drop s.position from h] at hrest
    exact List.drop_eq_nil_iff.mp hrest
  rw [List.take_of_length_le hall, List.take_of_length_le (Nat.le_add_right_of_le hall)]

/-- Up to the end, as many characters have been read as the position says. -/
theorem length_take (h : IsOf source s) (hrest : s.rest ≠ []) :
    (source.take s.position).length = s.position := by
  rw [show s.rest = source.drop s.position from h, ne_eq, List.drop_eq_nil_iff] at hrest
  rw [List.length_take, Nat.min_eq_left (Nat.le_of_not_le hrest)]

end IsOf

end Scanner

/-- Nothing is left behind a text literal that is not closed. -/
theorem Piece.Begins.rest_openText {s : Scanner} {mark : Char} {body : List Char}
    (h : (Piece.openText mark body).Begins s.rest) :
    (s.passChars false (mark :: body)).rest = [] := by
  have hall : mark :: body = s.rest := h.2 mark body rfl
  rw [rest_passChars, hall, List.drop_length]

/-! ## Properties that are kept -/

namespace Scanner

variable {s : Scanner}

/-- The property is kept by the steps that passing over a piece is made up of. -/
structure Keeps (P : Scanner → Prop) : Prop where
  advance : ∀ {s : Scanner} (n : Nat), P s → P (s.advance n)
  breakLine : ∀ {s : Scanner}, P s → P s.breakLine
  /-- A token that is neither a sign nor a line break nor the end is recorded. -/
  word : ∀ {s : Scanner} {k : TokenKind} (v : TokenContent), isSign k = false →
    k ≠ .newline ∧ k ≠ .endOfFile → P s → P (s.emit k v)
  report : ∀ {s : Scanner} (ds : List Diagnostic), P s → P { s with reports := ds }

namespace Keeps

variable {P : Scanner → Prop}

theorem passChars (hP : Keeps P) (h : P s) (b : Bool) (cs : List Char) : P (s.passChars b cs) := by
  induction cs generalizing s with
  | nil => exact h
  | cons c cs ih =>
    rw [passChars_cons]
    refine ih ?_
    unfold passChar
    split
    · -- a line begins before or behind the character that breaks the line
      split
      · exact hP.advance 1 (hP.breakLine h)
      · exact hP.breakLine (hP.advance 1 h)
    · exact hP.advance 1 h

/-- A token that is no sign is recorded where it ends. -/
theorem pass_word (hP : Keeps P) (h : P s) {l : List Char} {k : TokenKind}
    {v : Except Fault TokenContent} (hlexeme : Lexeme l k v) (hsign : isSign k = false) :
    P (s.pass (.lexeme l k v)).1 := by
  have hchars := hP.passChars h false l
  cases v with
  | error fault => exact hchars
  | ok v =>
    show P ((s.passChars false l).record k v (if isSign k then s.pos else _))
    rw [hsign]
    exact hP.word v hsign hlexeme.kind_ne hchars

/-- **A property that is kept by the steps is kept by every piece**, where signs are seen to apart. -/
theorem pass (hP : Keeps P) (h : P s) {text : List Char} {p : Piece} (hp : p.Found text)
    (hsign : ∀ x k, (x, k) ∈ signs → x.toList <+: text →
      P ((s.emit k (.text x)).advance x.length)) : P (s.pass p).1 := by
  have hchars := hP.passChars h p.isComment p.chars
  cases hp with
  | blank | lineBreak | lineComment | blockComment => exact hchars
  | strange | openComment => exact hP.report _ hchars
  | openText => exact hP.advance 1 (hP.report _ hchars)
  | lexeme hlexeme _ htext =>
    cases hlexeme with
    | sign hx =>
      rw [pass_sign s hx]
      exact hsign _ _ hx ⟨_, htext.symm⟩
    | keyword hx => exact hP.pass_word h (.keyword hx) (not_isSign_of_keyword _ hx)
    | name hx => exact hP.pass_word h (.name hx) (by decide)
    | whole hne hx => exact hP.pass_word h (.whole hne hx) (by decide)
    | fraction hx => exact hP.pass_word h (.fraction hx) (by decide)
    | text hmark hbody => exact hP.pass_word h (.text hmark hbody) (by decide)

end Keeps

end Scanner

end Scriptlet
