import Scriptlet.Proofs.SourceText

/-! # The pieces of a source text

A step of the scanner does two things: it finds the next piece of the text, and it passes over that
piece. Which piece comes next depends on the text alone (`Piece.first`); what passing does to the
scanner depends on the piece alone (`Scanner.pass`). That every step is made up of the two is
`Scanner.stepAt_eq_pass`, and everything that is said about steps and scans later is said about pieces.
-/
namespace Scriptlet

open Text Scanner

/-- A piece of a source text. -/
inductive Piece where
  /-- A blank. -/
  | blank
  /-- A line break. -/
  | lineBreak
  /-- A comment up to the end of its line. -/
  | lineComment (body : List Char)
  /-- A comment that is closed. -/
  | blockComment (body : List Char)
  /-- The characters of a token, with its kind and what it says, if that can be told. -/
  | lexeme (chars : List Char) (kind : TokenKind) (content : Except Fault TokenContent)
  /-- A character that begins no token. -/
  | strange (c : Char)
  /-- A text literal that is not closed. -/
  | openText (mark : Char) (body : List Char)
  /-- A comment that is not closed. -/
  | openComment (body : List Char)

namespace Piece

/-- The characters of a piece. -/
def chars : Piece → List Char
  | blank => [' ']
  | lineBreak => ['\n']
  | lineComment body => '/' :: '/' :: body
  | blockComment body => '/' :: '*' :: (body ++ ['*', '/'])
  | lexeme cs _ _ => cs
  | strange c => [c]
  | openText mark body => mark :: body
  | openComment body => '/' :: '*' :: body

/-- Whether the line breaks in a piece stand inside of a comment. -/
def isComment : Piece → Bool
  | blockComment _ | openComment _ => true
  | _ => false

/-- Nothing is wrong with a piece. -/
def Clean : Piece → Prop
  | lexeme _ _ content => ∃ v, content = .ok v
  | strange _ | openText _ _ | openComment _ => False
  | _ => True

/-- The body of a block comment, and whether it is closed. -/
def commentBody : List Char → List Char × Bool
  | [] => ([], false)
  | '*' :: '/' :: _ => ([], true)
  | c :: cs => ((c :: (commentBody cs).1), (commentBody cs).2)

/-- The block comment that has begun before a text. -/
def comment (cs : List Char) : Piece :=
  if (commentBody cs).2 then blockComment (commentBody cs).1 else openComment (commentBody cs).1

/-- The number at the front of a text. -/
def number (cs : List Char) : Piece :=
  lexeme (numberLexeme cs).1 .number
    (numberContent (String.ofList (numberLexeme cs).1) (numberLexeme cs).2)

/-- The text literal that has begun with `mark`. -/
def quoted (mark : Char) (cs : List Char) : Piece :=
  if mark ∈ cs then
    lexeme (mark :: (cs.takeWhile (· ≠ mark) ++ [mark])) .text
      (.ok (.text (String.ofList (unescape (cs.takeWhile (· ≠ mark))))))
  else openText mark cs

/-- The name or keyword at the front of a text. -/
def word (cs : List Char) : Piece :=
  lexeme (cs.takeWhile isNamePart)
    ((keywords.lookup (String.ofList (cs.takeWhile isNamePart))).getD .identifier)
    (.ok (.text (String.ofList (cs.takeWhile isNamePart))))

/-- **The first piece of a text**, whose first character is `c`. -/
def first (c : Char) (cs : List Char) : Piece :=
  if c = ' ' then blank
  else if c = '\n' then lineBreak
  else if c = '/' ∧ cs.head? = some '/' then lineComment ((cs.drop 1).takeWhile (· ≠ '\n'))
  else if c = '/' ∧ cs.head? = some '*' then comment (cs.drop 1)
  else
    match signs.find? fun sign => sign.1.toList.isPrefixOf (c :: cs) with
    | some (sign, kind) => lexeme sign.toList kind (.ok (.text sign))
    | none =>
      if isDigit c then number (c :: cs)
      else if c = '"' ∨ c = '\'' then quoted c cs
      else if isLetter c then word (c :: cs)
      else strange c

end Piece

namespace Scanner

variable {s : Scanner} {c : Char} {cs : List Char}

/-! ## Passing over characters -/

/-- Passes over a character. Inside of a comment, a new line begins before its break. -/
def passChar (inComment : Bool) (s : Scanner) (c : Char) : Scanner :=
  if c = '\n' then
    if inComment then s.breakLine.advance 1 else s.skipNewline
  else s.advance 1

/-- Passes over characters, one after the other. -/
def passChars (inComment : Bool) (s : Scanner) (cs : List Char) : Scanner :=
  cs.foldl (passChar inComment) s

@[simp] theorem passChars_nil (b : Bool) (s : Scanner) : s.passChars b [] = s := rfl

@[simp] theorem passChars_cons (b : Bool) (s : Scanner) (c : Char) (cs : List Char) :
    s.passChars b (c :: cs) = (s.passChar b c).passChars b cs := rfl

@[simp] theorem passChars_append (b : Bool) (s : Scanner) (cs ds : List Char) :
    s.passChars b (cs ++ ds) = (s.passChars b cs).passChars b ds :=
  List.foldl_append

theorem passChar_of_ne (b : Bool) (s : Scanner) (h : c ≠ '\n') : s.passChar b c = s.advance 1 :=
  if_neg h

/-- Characters of one line are passed at once. -/
theorem passChars_of_not_mem (b : Bool) (h : '\n' ∉ cs) : s.passChars b cs = s.advance cs.length := by
  induction cs generalizing s with
  | nil => simp [advance]
  | cons c cs ih =>
    rw [List.mem_cons, not_or] at h
    rw [passChars_cons, passChar_of_ne b s (Ne.symm h.1), ih h.2, advance_advance, List.length_cons,
      Nat.add_comm]

/-- Records a token at a given place. -/
def record (s : Scanner) (kind : TokenKind) (content : TokenContent) (p : Pos) : Scanner :=
  { s with tokens := s.tokens.push ⟨kind, content, p⟩ }

/-- Whether a token is a sign, and so recorded where it begins. -/
def isSign (kind : TokenKind) : Bool :=
  signs.any fun sign => sign.2 = kind

/-- **Passes over a piece** and records what it brings. -/
def pass (s : Scanner) (p : Piece) : Scanner × Option Fault :=
  let s' := s.passChars p.isComment p.chars
  match p with
  | .lexeme _ kind (.ok content) =>
    (s'.record kind content (if isSign kind then s.pos else s'.pos), none)
  | .lexeme _ _ (.error fault) => (s', some fault)
  | .strange c => ({ s' with reports := s'.reports ++ [.scan (.strangeSymbol c) s.pos] }, none)
  | .openText mark _ => ((s'.report (.unclosedText mark)).advance 1, none)
  | .openComment _ => (s'.report .unclosedComment, none)
  | _ => (s', none)

/-! ## A step finds a piece and passes over it -/

theorem skipComment_eq (s : Scanner) (cs : List Char) :
    skipComment s cs =
      if (Piece.commentBody cs).2 then (s.passChars true (Piece.commentBody cs).1).advance 2
      else (s.passChars true (Piece.commentBody cs).1).report .unclosedComment := by
  fun_induction skipComment s cs with
  | case1 s => rfl
  | case2 s rest => rfl
  | case3 s rest ih =>
    rw [ih]
    simp [Piece.commentBody, passChar]
  | case4 s c rest hclose hbreak ih =>
    rw [ih, Piece.commentBody]
    · simp [passChar_of_ne true s hbreak]
    · exact hclose

theorem scanText_eq {mark : Char} (hmark : mark ≠ '\n') (body : List Char) (s : Scanner)
    (cs : List Char) :
    scanText mark body s cs =
      if mark ∈ cs then
        ((s.passChars false (cs.takeWhile (· ≠ mark))).advance 1).emit .text
          (.text (String.ofList (unescape (body.reverse ++ cs.takeWhile (· ≠ mark)))))
      else ((s.passChars false cs).report (.unclosedText mark)).advance 1 := by
  fun_induction scanText mark body s cs with
  | case1 => simp
  | case2 body s rest ih =>
    rw [ih]
    simp [passChar, hmark, Ne.symm hmark]
  | case3 body s rest hne => simp
  | case4 body s c rest hbreak hne ih =>
    rw [ih]
    simp [passChar_of_ne false s hbreak, hne, Ne.symm hne]

/-- Signs are written on one line, and their kinds are no kinds of other tokens. -/
theorem sign_facts : ∀ sign ∈ signs, '\n' ∉ sign.1.toList ∧ isSign sign.2 = true := by
  decide

theorem not_isSign_of_keyword : ∀ entry ∈ keywords, isSign entry.2 = false := by
  decide

/-- The kind of a word is in the table of the keywords, or it is a name. -/
theorem lookup_keywords_cases (x : String) :
    (keywords.lookup x = none) ∨ ∃ k, keywords.lookup x = some k ∧ (x, k) ∈ keywords := by
  cases hk : keywords.lookup x with
  | none => exact .inl rfl
  | some k =>
    obtain ⟨l₁, l₂, hl, -⟩ := List.lookup_eq_some_iff.mp hk
    refine .inr ⟨k, rfl, ?_⟩
    rw [hl]
    exact List.mem_append_right _ List.mem_cons_self

theorem not_isSign_word (x : String) : isSign ((keywords.lookup x).getD .identifier) = false := by
  rcases lookup_keywords_cases x with hk | ⟨k, hk, hmem⟩
  · rw [hk]
    decide
  · rw [hk]
    exact not_isSign_of_keyword _ hmem

theorem not_mem_takeWhile_isNamePart (cs : List Char) : '\n' ∉ cs.takeWhile isNamePart := by
  intro hmem
  have hpart : isNamePart '\n' = true := List.all_eq_true.mp List.all_takeWhile _ hmem
  exact absurd (isNamePart_bounds hpart) (by decide)

theorem not_mem_numberLexeme (cs : List Char) : '\n' ∉ (numberLexeme cs).1 := by
  have hdigits : ∀ ds : List Char, '\n' ∉ ds.takeWhile isDigit := by
    intro ds hmem
    have hdigit : isDigit '\n' = true := List.all_eq_true.mp List.all_takeWhile _ hmem
    rw [isDigit_blank.2] at hdigit
    cases hdigit
  unfold numberLexeme
  simp only
  split
  · split
    · simp only [List.mem_append, List.mem_cons, not_or]
      exact ⟨hdigits _, by decide, hdigits _⟩
    · exact hdigits _
  · exact hdigits _

theorem pass_lineComment (s : Scanner) {body : List Char} (h : '\n' ∉ body) :
    s.pass (.lineComment body) = (s.advance (2 + body.length), none) := by
  have hline : '\n' ∉ Piece.chars (.lineComment body) := by
    simp [Piece.chars, h]
  show (s.passChars false _, none) = _
  rw [passChars_of_not_mem false hline, Piece.chars, List.length_cons, List.length_cons,
    Nat.add_assoc, Nat.add_comm]

theorem skipComment_eq_pass (s : Scanner) (cs : List Char) :
    (skipComment (s.advance 2) cs, none) = s.pass (Piece.comment cs) := by
  have hopen : ∀ ds, s.passChars true ('/' :: '*' :: ds) = (s.advance 2).passChars true ds := by
    intro ds
    simp [passChar, advance_advance]
  rw [skipComment_eq, Piece.comment]
  split
  · show _ = (s.passChars true _, none)
    simp [Piece.chars, hopen, passChar, advance_advance]
  · show _ = ((s.passChars true _).report .unclosedComment, none)
    rw [Piece.chars, hopen]

theorem scanText_eq_pass (s : Scanner) {mark : Char} (hmark : mark = '"' ∨ mark = '\'')
    (cs : List Char) :
    (scanText mark [] (s.advance 1) cs, none) = s.pass (Piece.quoted mark cs) := by
  have hbreak : mark ≠ '\n' := by
    rcases hmark with rfl | rfl <;> decide
  have htext : isSign .text = false := by decide
  rw [scanText_eq hbreak, Piece.quoted]
  split
  · simp [pass, Piece.chars, Piece.isComment, htext, passChar_of_ne _ _ hbreak, record, emit]
  · show _ = (((s.passChars false _).report (.unclosedText mark)).advance 1, none)
    rw [Piece.chars, passChars_cons, passChar_of_ne _ _ hbreak]

theorem scanNumber_eq_pass (s : Scanner) : s.scanNumber = s.pass (Piece.number s.rest) := by
  have hnumber : isSign .number = false := by decide
  have hline := not_mem_numberLexeme s.rest
  unfold scanNumber Piece.number pass
  simp only [Piece.chars, passChars_of_not_mem _ hline]
  cases numberContent (String.ofList (numberLexeme s.rest).1) (numberLexeme s.rest).2 with
  | error fault => rfl
  | ok content => simp [hnumber, record, emit]

theorem scanWord_eq_pass (s : Scanner) : (s.scanWord, none) = s.pass (Piece.word s.rest) := by
  have hline := not_mem_takeWhile_isNamePart s.rest
  unfold scanWord Piece.word pass
  simp only [Piece.chars, passChars_of_not_mem _ hline, not_isSign_word, record, emit]
  rfl

theorem pass_sign (s : Scanner) {x : String} {k : TokenKind} (h : (x, k) ∈ signs) :
    s.pass (.lexeme x.toList k (.ok (.text x))) = ((s.emit k (.text x)).advance x.length, none) := by
  obtain ⟨hline, hsign⟩ := sign_facts _ h
  show ((s.passChars false x.toList).record k (.text x) (if isSign k then s.pos else _), none) = _
  rw [passChars_of_not_mem false hline, if_pos hsign, String.length_toList]
  rfl

/-- **Every step finds the first piece and passes over it.** -/
theorem stepAt_eq_pass (h : s.rest = c :: cs) : s.stepAt c cs = s.pass (Piece.first c cs) := by
  unfold stepAt Piece.first
  split
  · rfl
  split
  · rfl
  split
  · rw [pass_lineComment]
    · rfl
    · intro hmem
      simpa using List.all_eq_true.mp List.all_takeWhile _ hmem
  split
  · exact skipComment_eq_pass s (cs.drop 1)
  cases hfind : signs.find? fun sign => sign.1.toList.isPrefixOf (c :: cs) with
  | some sign => exact (pass_sign s (List.mem_of_find?_eq_some hfind)).symm
  | none =>
    simp only
    split
    · rw [← h]
      exact scanNumber_eq_pass s
    split
    · rename_i hmark
      exact scanText_eq_pass s hmark cs
    split
    · rw [← h]
      exact scanWord_eq_pass s
    · rename_i hbreak _ _ _ _ _
      simp [pass, Piece.chars, Piece.isComment, passChar, hbreak, report, advance, pos]

/-! ## What passing leaves unchanged -/

@[simp] theorem reports_passChar (b : Bool) (s : Scanner) (c : Char) :
    (s.passChar b c).reports = s.reports := by
  unfold passChar
  split
  · split <;> rfl
  · rfl

@[simp] theorem reports_passChars (b : Bool) (s : Scanner) (cs : List Char) :
    (s.passChars b cs).reports = s.reports := by
  induction cs generalizing s with
  | nil => rfl
  | cons c cs ih => rw [passChars_cons, ih, reports_passChar]

@[simp] theorem position_passChars (b : Bool) (s : Scanner) (cs : List Char) :
    (s.passChars b cs).position = s.position + cs.length := by
  induction cs generalizing s with
  | nil => rfl
  | cons c cs ih =>
    have hone : (s.passChar b c).position = s.position + 1 := by
      unfold passChar
      split
      · split <;> rfl
      · rfl
    rw [passChars_cons, ih, hone, List.length_cons]
    omega

/-- Every line break that is passed begins a line. -/
@[simp] theorem line_passChars (b : Bool) (s : Scanner) (cs : List Char) :
    (s.passChars b cs).line = s.line + cs.count '\n' := by
  induction cs generalizing s with
  | nil => rfl
  | cons c cs ih =>
    have hone : (s.passChar b c).line = s.line + if c = '\n' then 1 else 0 := by
      unfold passChar
      split
      · split <;> rfl
      · rfl
    rw [passChars_cons, ih, hone, List.count_cons]
    simp only [beq_iff_eq]
    omega

/-- The same scanner before another text. -/
def withRest (s : Scanner) (cs : List Char) : Scanner :=
  { s with rest := cs }

/-- What passing does to a scanner does not depend on the text that follows. -/
theorem passChars_withRest (b : Bool) (s : Scanner) (cs ds : List Char) :
    (s.withRest ds).passChars b cs = (s.passChars b cs).withRest (ds.drop cs.length) := by
  induction cs generalizing s ds with
  | nil => rfl
  | cons c cs ih =>
    have hone : (s.withRest ds).passChar b c = (s.passChar b c).withRest (ds.drop 1) := by
      unfold passChar
      split
      · split <;> rfl
      · rfl
    rw [passChars_cons, hone, ih, List.drop_drop, Nat.add_comm]
    rfl

/-- **Pieces are clean if nothing is reported** and there is no fault. -/
theorem pass_clean_iff (s : Scanner) (p : Piece) :
    (s.pass p).2 = none ∧ (s.pass p).1.reports = s.reports ↔ p.Clean := by
  cases p with
  | lexeme cs kind content => cases content <;> simp [pass, Piece.Clean, record]
  | blank | lineBreak | lineComment | blockComment | strange | openText | openComment =>
    simp [pass, Piece.Clean, report, advance]

/-- What has been reported stays reported. -/
theorem reports_prefix_pass (s : Scanner) (p : Piece) : s.reports <+: (s.pass p).1.reports := by
  cases p with
  | lexeme cs kind content => cases content <;> simp [pass, record]
  | blank | lineBreak | lineComment | blockComment | strange | openText | openComment =>
    simp [pass, report, advance]

theorem pass_withRest {p : Piece} (hp : p.Clean) (s : Scanner) (ds : List Char) :
    (s.withRest ds).pass p = ((s.pass p).1.withRest (ds.drop p.chars.length), (s.pass p).2) := by
  cases p with
  | lexeme cs kind content =>
    obtain ⟨v, rfl⟩ := hp
    simp only [pass, passChars_withRest]
    rfl
  | blank | lineBreak | lineComment | blockComment => simp only [pass, passChars_withRest]
  | strange | openText | openComment => exact absurd hp id

/-- What has not been read behind a clean piece. -/
theorem rest_pass {p : Piece} (hp : p.Clean) (h : s.rest = p.chars ++ cs) :
    (s.pass p).1.rest = cs := by
  have hpass := pass_withRest hp s s.rest
  rw [show s.withRest s.rest = s from rfl] at hpass
  rw [hpass, h, List.drop_left]
  rfl

/-! ## Scans -/

theorem run_of_rest_nil (h : s.rest = []) :
    s.run = ⟨{ s with tokens := s.tokens.push Token.endOfFile }, none⟩ := by
  rw [Scanner.run]
  split
  · rfl
  · rename_i hcons
    rw [h] at hcons
    cases hcons

theorem run_of_fault {s' : Scanner} {fault : Fault} (h : s.rest = c :: cs)
    (hpass : s.pass (Piece.first c cs) = (s', some fault)) : s.run = ⟨s', some fault⟩ := by
  rw [← stepAt_eq_pass h] at hpass
  rw [Scanner.run]
  split
  · rename_i hnil
    rw [h] at hnil
    cases hnil
  · rename_i c' cs' hcons
    rw [h] at hcons
    cases hcons
    split
    · rename_i hfault
      rw [hpass] at hfault
      cases hfault
      rfl
    · rename_i hnext
      rw [hpass] at hnext
      cases hnext

theorem run_of_pass {s' : Scanner} (h : s.rest = c :: cs)
    (hpass : s.pass (Piece.first c cs) = (s', none)) : s.run = s'.run :=
  run_of_stepAt h (by rw [stepAt_eq_pass h, hpass])

/-- **Induction over a scan**: it is at its end, the next piece is a fault, or it goes on behind the
next piece. -/
@[elab_as_elim]
theorem pass_induction {motive : Scanner → Prop} (nil : ∀ s : Scanner, s.rest = [] → motive s)
    (fault : ∀ (s : Scanner) (c : Char) (cs : List Char) (s' : Scanner) (f : Fault),
      s.rest = c :: cs → s.pass (Piece.first c cs) = (s', some f) → motive s)
    (next : ∀ (s : Scanner) (c : Char) (cs : List Char) (s' : Scanner),
      s.rest = c :: cs → s.pass (Piece.first c cs) = (s', none) → motive s' → motive s)
    (s : Scanner) : motive s := by
  fun_induction Scanner.run s with
  | case1 s h => exact nil s h
  | case2 s c cs h s' f hstep => exact fault s c cs s' f h (by rw [← stepAt_eq_pass h, hstep])
  | case3 s c cs h s' hstep _ ih =>
    exact next s c cs s' h (by rw [← stepAt_eq_pass h, hstep]) ih

theorem reports_prefix_run (s : Scanner) : s.reports <+: s.run.scanner.reports := by
  induction s using pass_induction with
  | nil s h =>
    have hreports : s.run.scanner.reports = s.reports := by rw [run_of_rest_nil h]
    exact hreports ▸ List.prefix_refl _
  | fault s c cs s' f h hpass =>
    rw [run_of_fault h hpass]
    have := reports_prefix_pass s (Piece.first c cs)
    rwa [hpass] at this
  | next s c cs s' h hpass ih =>
    rw [run_of_pass h hpass]
    have := reports_prefix_pass s (Piece.first c cs)
    rw [hpass] at this
    exact this.trans ih

/-- The scan meets no fault and reports nothing. -/
def RunsClean (s : Scanner) : Prop :=
  s.run.fault = none ∧ s.run.scanner.reports = s.reports

theorem runsClean_of_rest_nil (h : s.rest = []) : s.RunsClean := by
  rw [RunsClean, run_of_rest_nil h]
  exact ⟨rfl, rfl⟩

theorem run_of_clean (h : s.rest = c :: cs) (hp : (Piece.first c cs).Clean) :
    s.run = (s.pass (Piece.first c cs)).1.run :=
  run_of_pass h (Prod.ext rfl ((pass_clean_iff s _).mpr hp).1)

/-- **A scan is clean if its pieces are**: the first one, and all behind it. -/
theorem runsClean_iff (h : s.rest = c :: cs) :
    s.RunsClean ↔ (Piece.first c cs).Clean ∧ (s.pass (Piece.first c cs)).1.RunsClean := by
  have hclean := pass_clean_iff s (Piece.first c cs)
  by_cases hp : (Piece.first c cs).Clean
  · rw [RunsClean, RunsClean, run_of_clean h hp, (hclean.mpr hp).2]
    simp [hp]
  · refine iff_of_false ?_ fun hall => hp hall.1
    rintro ⟨hfault, hreports⟩
    rcases hpass : s.pass (Piece.first c cs) with ⟨s', _ | fault⟩
    · -- what is reported on the way is reported at the end
      have hgrows := reports_prefix_pass s (Piece.first c cs)
      have hend := reports_prefix_run s'
      rw [hpass] at hclean hgrows
      rw [run_of_pass h hpass] at hreports
      rw [hreports] at hend
      exact hp (hclean.mp ⟨rfl, (hgrows.eq_of_length_le hend.length_le).symm⟩)
    · rw [run_of_fault h hpass] at hfault
      cases hfault

end Scanner

end Scriptlet
