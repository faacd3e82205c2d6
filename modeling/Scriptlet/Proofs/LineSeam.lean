import Scriptlet.Proofs.LexicalGrammar

/-! # Scanning is compositional at line breaks

A text that ends with a line break and is read cleanly leaves the scanner where it began, but for the
lines and characters that it has passed. What follows is then scanned as if it stood alone, so many
lines further down (`scan_append_line`).

Two facts are behind this. Only texts between quotes and comments have line breaks in them, and these
know their ends, so that no piece of the first text can reach over the seam (`Piece.Proper.append`).
And pieces are passed in the same way on every line (`Scanner.pass_behind`).
-/
namespace Scriptlet

open Text Scanner

/-! ## Lexemes with line breaks are texts -/

namespace Lexeme

variable {l : List Char} {k : TokenKind} {v : Except Fault TokenContent}

/-- A lexeme with a line break in it is a text between quotes. -/
theorem quoted_of_newline_mem (h : Lexeme l k v) (hbreak : '\n' ∈ l) :
    ∃ mark body, (mark = '"' ∨ mark = '\'') ∧ mark ∉ body ∧ l = mark :: (body ++ [mark]) := by
  have hidentifier : ∀ {x : String}, Word.IsIdentifier x → '\n' ∉ x.toList := by
    rintro x ⟨c, cs, hx, hc, hcs⟩ hmem
    have hpart : isNamePart '\n' = true := by
      rw [hx] at hmem
      rcases List.mem_cons.mp hmem with rfl | hmem
      · exact isNamePart_of_isLetter hc
      · exact hcs _ hmem
    exact absurd (isNamePart_bounds hpart) (by decide)
  have hdigit : isDigit '\n' = true → False := by
    rw [isDigit_blank.2]
    exact Bool.false_ne_true
  cases h with
  | sign hx => exact absurd hbreak (sign_facts _ hx).1
  | keyword hx => exact absurd hbreak (hidentifier (Word.isIdentifier_of_keyword hx).1)
  | name hx => exact absurd hbreak (hidentifier hx.1)
  | whole _ hdigits => exact (hdigit (hdigits _ hbreak)).elim
  | fraction hpoint =>
    obtain ⟨c, whole, d, fraction, rfl, hwhole, hfraction⟩ := hpoint
    rw [← List.cons_append, List.mem_append, List.mem_cons (b := '.')] at hbreak
    rcases hbreak with hbreak | hbreak | hbreak
    · exact (hdigit (hwhole _ hbreak)).elim
    · exact absurd hbreak (by decide)
    · exact (hdigit (hfraction _ hbreak)).elim
  | text hmark hbody => exact ⟨_, _, hmark, hbody, rfl⟩

/-- A lexeme that begins with a quote ends with the next one. -/
theorem quoted_of_head {mark : Char} {ds : List Char} (h : Lexeme (mark :: ds) k v)
    (hmark : mark = '"' ∨ mark = '\'') : ∃ body, mark ∉ body ∧ ds = body ++ [mark] := by
  have hsigns : ∀ sign ∈ signs, sign.1.toList.head? ≠ some '"' ∧ sign.1.toList.head? ≠ some '\'' := by
    decide
  have hplain : isLetter mark = false ∧ isDigit mark = false := by
    rcases hmark with rfl | rfl <;> decide +kernel
  have hidentifier : ∀ {x : String}, Word.IsIdentifier x → x.toList ≠ mark :: ds := by
    rintro x ⟨c, cs, hx, hc, -⟩ heq
    rw [hx] at heq
    rw [(List.cons.inj heq).1, hplain.1] at hc
    cases hc
  generalize hl : mark :: ds = l at h
  cases h with
  | sign hx =>
    have := hsigns _ hx
    rw [← hl] at this
    rcases hmark with rfl | rfl
    · exact absurd rfl this.1
    · exact absurd rfl this.2
  | keyword hx => exact absurd hl.symm (hidentifier (Word.isIdentifier_of_keyword hx).1)
  | name hx => exact absurd hl.symm (hidentifier hx.1)
  | whole _ hdigits =>
    have := hdigits mark (hl ▸ List.mem_cons_self)
    rw [hplain.2] at this
    cases this
  | fraction hpoint =>
    obtain ⟨c, whole, d, fraction, rfl, hwhole, -⟩ := hpoint
    have := hwhole mark (by rw [(List.cons.inj hl).1]; exact List.mem_cons_self)
    rw [hplain.2] at this
    cases this
  | text _ hbody =>
    obtain ⟨rfl, rfl⟩ := List.cons.inj hl
    exact ⟨_, hbody, rfl⟩

/-- No lexeme ends with a line break. -/
theorem getLast?_ne_newline (h : Lexeme l k v) : l.getLast? ≠ some '\n' := by
  intro hlast
  obtain ⟨mark, body, hmark, -, rfl⟩ := h.quoted_of_newline_mem (List.mem_of_getLast? hlast)
  rw [← List.cons_append, List.getLast?_concat] at hlast
  rcases hmark with rfl | rfl <;> exact absurd hlast (by decide)

/-- **A lexeme that goes over a line break is no longer than another one at its place.** -/
theorem length_le_of_newline_mem {l' : List Char} {k' : TokenKind}
    {v' : Except Fault TokenContent} (h : Lexeme l k v) (h' : Lexeme l' k' v') (hstart : l <+: l')
    (hbreak : '\n' ∈ l') : l'.length ≤ l.length := by
  obtain ⟨mark, body, hmark, hbody, rfl⟩ := h'.quoted_of_newline_mem hbreak
  obtain ⟨c, ds, rfl⟩ := List.exists_cons_of_ne_nil h.ne_nil
  obtain ⟨rfl, hds⟩ := List.cons_prefix_cons.mp hstart
  obtain ⟨body', -, rfl⟩ := h.quoted_of_head hmark
  -- both end with the first quote of their kind
  rcases List.prefix_concat_iff.mp hds with heq | hinner
  · exact Nat.le_of_eq (by rw [heq])
  · exact absurd (hinner.subset (by simp)) hbody

end Lexeme

/-! ## No piece reaches over the seam -/

namespace Piece

variable {p : Piece} {rest : List Char}

/-- The only piece that ends with a line break is the line break. -/
theorem Proper.eq_lineBreak (h : p.Proper rest) (hlast : p.chars.getLast? = some '\n') :
    p = Piece.lineBreak := by
  cases h with
  | lineBreak => rfl
  | blank => exact absurd hlast (by decide)
  | lineComment hbody _ =>
    have hmem := List.mem_of_getLast? hlast
    simp [chars, hbody] at hmem
  | blockComment =>
    rename_i body _
    have hchars : chars (.blockComment body) = '/' :: '*' :: (body ++ ['*']) ++ ['/'] := by
      simp [chars]
    rw [hchars, List.getLast?_concat] at hlast
    exact absurd hlast (by decide)
  | lexeme hlexeme _ _ => exact absurd hlast hlexeme.getLast?_ne_newline

/-- **A piece before a line break is cut in the same way** whatever follows the break. -/
theorem Proper.append (h : p.Proper rest) (hlast : (p.chars ++ rest).getLast? = some '\n')
    (more : List Char) : p.Proper (rest ++ more) := by
  cases h with
  | blank => exact .blank
  | lineBreak => exact .lineBreak
  | blockComment hbody => exact .blockComment hbody
  | lineComment hbody hend =>
    rename_i body
    refine .lineComment hbody ?_
    cases rest with
    | nil =>
      rw [List.append_nil] at hlast
      cases (Proper.lineComment hbody hend).eq_lineBreak hlast
    | cons c rest => exact hend
  | lexeme hlexeme longest hcomment =>
    rename_i l k v
    -- the break stands behind the lexeme
    have hne : rest ≠ [] := by
      rintro rfl
      rw [List.append_nil] at hlast
      exact hlexeme.getLast?_ne_newline hlast
    have hlength : 2 ≤ (l ++ rest).length := by
      have hl := List.length_pos_iff.mpr hlexeme.ne_nil
      have hr := List.length_pos_iff.mpr hne
      rw [List.length_append]
      omega
    refine .lexeme hlexeme ?_ ?_
    · intro l' k' v' hlexeme' hstart
      rw [← List.append_assoc] at hstart
      rcases List.prefix_or_prefix_of_prefix hstart (List.prefix_append (l ++ rest) more)
        with hinner | houter
      · exact longest l' k' v' hlexeme' hinner
      · exact hlexeme.length_le_of_newline_mem hlexeme' ((List.prefix_append l rest).trans houter)
          (houter.subset (List.mem_of_getLast? hlast))
    · rw [← List.append_assoc]
      rintro (hopen | hopen)
      · exact hcomment (.inl (List.prefix_of_prefix_length_le hopen (List.prefix_append _ more)
          hlength))
      · exact hcomment (.inr (List.prefix_of_prefix_length_le hopen (List.prefix_append _ more)
          hlength))

end Piece

/-! ## The same scan further down -/

/-- The place `k` lines further down. -/
def Pos.lowered (k : Nat) (p : Pos) : Pos :=
  ⟨p.line + k, p.column⟩

/-- A token `k` lines further down. The mark of the end has no place. -/
def Token.lowered (k : Nat) (t : Token) : Token :=
  if t.kind = .endOfFile then t else { t with pos := t.pos.lowered k }

/-- What is reported when the program stands `k` lines further down. -/
def Diagnostic.lowered (k : Nat) : Diagnostic → Diagnostic
  | .scan problem p => .scan problem (p.lowered k)
  | .terminator problem p => .terminator problem (p.lowered k)
  | .grammar problem p => .grammar problem (p.lowered k)
  | .typing problem p => .typing problem (p.lowered k)
  | .zeroDivision p => .zeroDivision (p.lowered k)
  | .zeroModulo p => .zeroModulo (p.lowered k)
  | .notOfOther => .notOfOther
  | .note text => .note text

namespace Scanner

/-- The same scan behind `n` characters on `k` lines, in which the tokens `ts` were found. -/
def behind (n k : Nat) (ts : Array Token) (s : Scanner) : Scanner where
  rest := s.rest
  position := n + s.position
  line := k + s.line
  column := s.column
  tokens := ts ++ s.tokens.map (Token.lowered k)
  reports := s.reports.map (Diagnostic.lowered k)

section Behind

variable (n k : Nat) (ts : Array Token) (s : Scanner)

theorem advance_behind (m : Nat) :
    (s.behind n k ts).advance m = (s.advance m).behind n k ts := by
  simp only [advance, behind, Nat.add_assoc]

theorem pos_behind : (s.behind n k ts).pos = s.pos.lowered k := by
  simp only [pos, behind, Pos.lowered, Int.natCast_add, Int.add_comm]

theorem record_behind {kind : TokenKind} (hkind : kind ≠ .endOfFile) (content : TokenContent)
    (p : Pos) :
    (s.behind n k ts).record kind content (p.lowered k) =
      (s.record kind content p).behind n k ts := by
  simp only [record, behind, Array.push_append, Array.map_push, Token.lowered, hkind, if_false]

theorem emit_behind {kind : TokenKind} (hkind : kind ≠ .endOfFile) (content : TokenContent) :
    (s.behind n k ts).emit kind content = (s.emit kind content).behind n k ts := by
  rw [show (s.behind n k ts).emit kind content =
    (s.behind n k ts).record kind content (s.behind n k ts).pos from rfl, pos_behind,
    record_behind n k ts s hkind]
  rfl

theorem report_behind (problem : ScanProblem) :
    (s.behind n k ts).report problem = (s.report problem).behind n k ts := by
  simp only [report, pos_behind]
  simp only [behind, List.map_append, List.map_cons, List.map_nil, Diagnostic.lowered]

theorem breakLine_behind : (s.behind n k ts).breakLine = s.breakLine.behind n k ts := by
  unfold breakLine
  rw [emit_behind n k ts s (by decide)]
  simp only [behind, Nat.add_assoc]

theorem passChar_behind (b : Bool) (c : Char) :
    (s.behind n k ts).passChar b c = (s.passChar b c).behind n k ts := by
  simp only [passChar, skipNewline, breakLine_behind, advance_behind]
  split
  · split <;> rfl
  · rfl

theorem passChars_behind (b : Bool) (cs : List Char) :
    (s.behind n k ts).passChars b cs = (s.passChars b cs).behind n k ts := by
  induction cs generalizing s with
  | nil => rfl
  | cons c cs ih => rw [passChars_cons, passChars_cons, passChar_behind, ih]

/-- **A piece is passed in the same way on every line.** -/
theorem pass_behind {p : Piece} (hp : ∀ l kind v, p = .lexeme l kind v → kind ≠ .endOfFile) :
    (s.behind n k ts).pass p = ((s.pass p).1.behind n k ts, (s.pass p).2) := by
  cases p with
  | lexeme l kind content =>
    have hkind := hp l kind content rfl
    cases content with
    | error fault => simp only [pass, passChars_behind]
    | ok v =>
      simp only [pass, passChars_behind, pos_behind]
      split <;> rw [record_behind n k ts _ hkind]
  | strange c =>
    simp only [pass, passChars_behind, pos_behind]
    simp only [behind, List.map_append, List.map_cons, List.map_nil, Diagnostic.lowered]
  | openText => simp only [pass, passChars_behind, report_behind, advance_behind]
  | openComment => simp only [pass, passChars_behind, report_behind]
  | blank | lineBreak | lineComment | blockComment => simp only [pass, passChars_behind]

end Behind

end Scanner

/-- No first piece is the end of the text. -/
theorem Piece.kind_ne_of_first (c : Char) (cs : List Char) {l : List Char} {k : TokenKind}
    {v : Except Fault TokenContent} (h : Piece.first c cs = .lexeme l k v) : k ≠ .endOfFile := by
  have hfound := Piece.found_first c cs
  rw [h] at hfound
  cases hfound with
  | lexeme hlexeme _ _ => exact hlexeme.kind_ne.2

namespace Scanner

variable {s : Scanner}

/-- **A whole scan goes the same way further down.** -/
theorem run_behind (n k : Nat) (ts : Array Token) (s : Scanner) :
    (s.behind n k ts).run = ⟨s.run.scanner.behind n k ts, s.run.fault⟩ := by
  induction s using pass_induction with
  | nil s h =>
    rw [run_of_rest_nil h, run_of_rest_nil (show (s.behind n k ts).rest = [] from h)]
    simp only [behind, Array.push_append, Array.map_push]
    rfl
  | fault s c cs s' f h hpass =>
    have hbehind := pass_behind n k ts s fun l kind v => Piece.kind_ne_of_first c cs
    rw [hpass] at hbehind
    rw [run_of_fault h hpass, run_of_fault (show (s.behind n k ts).rest = c :: cs from h) hbehind]
  | next s c cs s' h hpass ih =>
    have hbehind := pass_behind n k ts s fun l kind v => Piece.kind_ne_of_first c cs
    rw [hpass] at hbehind
    rw [run_of_pass h hpass, run_of_pass (show (s.behind n k ts).rest = c :: cs from h) hbehind, ih]

/-! ## Up to the seam -/

/-- The scan of a text reaches its end in the state `e`, whatever follows the text. -/
structure Reads (s : Scanner) (text : List Char) (e : Scanner) : Prop where
  rest : e.rest = []
  run : s.run = ⟨{ e with tokens := e.tokens.push Token.endOfFile }, none⟩
  run_append : ∀ more, (s.withRest (text ++ more)).run = (e.withRest more).run
  position : e.position = s.position + text.length
  line : e.line = s.line + text.count '\n'
  reports : e.reports = s.reports

/-- A piece that is passed cleanly moves on by its characters and lines. -/
theorem position_pass {p : Piece} (hp : p.Clean) (s : Scanner) :
    (s.pass p).1.position = s.position + p.chars.length ∧
      (s.pass p).1.line = s.line + p.chars.count '\n' := by
  cases p with
  | lexeme l k content =>
    obtain ⟨v, rfl⟩ := hp
    simp [pass, record]
  | blank | lineBreak | lineComment | blockComment => simp [pass]
  | strange | openText | openComment => exact absurd hp id

/-- A text before a line break is read by its first piece, and then by all behind it. -/
theorem Reads.cons {p : Piece} {rest : List Char} {e : Scanner} (hp : p.Proper rest)
    (hrest : s.rest = p.chars ++ rest) (hlast : (p.chars ++ rest).getLast? = some '\n')
    (h : (s.pass p).1.Reads rest e) : s.Reads (p.chars ++ rest) e := by
  have hclean := hp.first_eq.1
  obtain ⟨hposition, hlines⟩ := position_pass hclean s
  refine ⟨h.rest, (run_of_proper hp hrest).1.trans h.run, ?_, ?_, ?_, ?_⟩
  · intro more
    have hmore : (s.withRest (p.chars ++ rest ++ more)).rest = p.chars ++ (rest ++ more) :=
      List.append_assoc _ _ _
    rw [(run_of_proper (hp.append hlast more) hmore).1, pass_withRest hclean, List.append_assoc,
      List.drop_left, h.run_append]
  · rw [h.position, hposition, List.length_append, Nat.add_assoc]
  · rw [h.line, hlines, List.count_append, Nat.add_assoc]
  · rw [h.reports, ((pass_clean_iff s p).mpr hclean).2]

/-- **A text that ends with a line break and is read cleanly** is read to its end in the same way
whatever follows, and ends at the beginning of a line. -/
theorem exists_reads (hclean : s.RunsClean)
    (hline : (s.rest = [] ∧ s.column = 0) ∨ s.rest.getLast? = some '\n') :
    ∃ e, s.Reads s.rest e ∧ e.column = 0 := by
  induction s using pass_induction with
  | nil s h =>
    have hcolumn : s.column = 0 := by
      rcases hline with hline | hline
      · exact hline.2
      · rw [h] at hline
        cases hline
    refine ⟨s, ⟨h, run_of_rest_nil h, ?_, ?_, ?_, rfl⟩, hcolumn⟩ <;> simp [h]
  | fault s c cs s' f h hpass =>
    have hnone := ((pass_clean_iff s _).mpr ((runsClean_iff h).mp hclean).1).1
    rw [hpass] at hnone
    cases hnone
  | next s c cs s' h hpass ih =>
    obtain ⟨hp, hruns⟩ := (runsClean_iff h).mp hclean
    obtain ⟨rest, htext, hproper⟩ := Piece.proper_of_first rfl hp
    have hrest := h.trans htext
    have hlast : s.rest.getLast? = some '\n' :=
      hline.resolve_left fun hnil => by simp [h] at hnil
    rw [hrest] at hlast
    have hbehind := rest_pass hp hrest
    generalize Piece.first c cs = p at *
    obtain rfl : s' = (s.pass p).1 := by rw [hpass]
    -- only a line break can stand directly before the end
    have hseam : ((s.pass p).1.rest = [] ∧ (s.pass p).1.column = 0) ∨
        (s.pass p).1.rest.getLast? = some '\n' := by
      rw [hbehind]
      by_cases hnil : rest = []
      · rw [hnil, List.append_nil] at hlast
        rw [hproper.eq_lineBreak hlast]
        exact .inl ⟨hnil, rfl⟩
      · rw [List.getLast?_append, List.getLast?_eq_some_getLast hnil, Option.some_or] at hlast
        exact .inr ((List.getLast?_eq_some_getLast hnil).trans hlast)
    obtain ⟨e, hreads, hcolumn⟩ := ih hruns hseam
    rw [hbehind] at hreads
    rw [hrest]
    exact ⟨e, hreads.cons hproper hrest hlast, hcolumn⟩

/-- Behind a text that was read from the beginning the scan stands as at the beginning of another,
further down. -/
theorem Reads.withRest_eq_behind {text : List Char} {e : Scanner}
    (h : Reads { rest := text } text e) (hcolumn : e.column = 0) (more : List Char) :
    e.withRest more = behind text.length (text.count '\n') e.tokens { rest := more } := by
  obtain ⟨rest, position, line, column, tokens, reports⟩ := e
  have hposition : position = text.length := h.position.trans (Nat.zero_add _)
  have hlines : line = text.count '\n' + 1 := h.line.trans (Nat.add_comm _ _)
  have hnone : reports = [] := h.reports
  have hzero : column = 0 := hcolumn
  subst hposition hlines hnone hzero
  simp [withRest, behind]

end Scanner

open Scanner

/-- **Scanning is compositional at line breaks.** If the first text ends with a line break and is
read cleanly, then the second is scanned behind it as if it stood alone: its tokens follow those of
the first, its tokens and reports stand so many lines further down, and it ends in the same way. -/
theorem scan_append_line (tail : String) {text : String}
    (hline : text.toList.getLast? = some '\n') (hfault : (scan text).fault = none)
    (hreports : (scan text).scanner.reports = []) :
    ∃ ts, (scan text).scanner.tokens.toList = ts ++ [Token.endOfFile] ∧
      (scan (text ++ tail)).scanner.tokens.toList =
        ts ++ (scan tail).scanner.tokens.toList.map (Token.lowered (text.toList.count '\n')) ∧
      (scan (text ++ tail)).scanner.reports =
        (scan tail).scanner.reports.map (Diagnostic.lowered (text.toList.count '\n')) ∧
      (scan (text ++ tail)).fault = (scan tail).fault ∧
      (scan (text ++ tail)).scanner.position = text.length + (scan tail).scanner.position ∧
      (scan (text ++ tail)).scanner.line = text.toList.count '\n' + (scan tail).scanner.line ∧
      (scan (text ++ tail)).scanner.column = (scan tail).scanner.column := by
  obtain ⟨e, hreads, hcolumn⟩ :=
    exists_reads (s := { rest := text.toList }) ⟨hfault, hreports⟩ (.inr hline)
  have hrun : scan (text ++ tail) = ⟨(scan tail).scanner.behind text.toList.length
      (text.toList.count '\n') e.tokens, (scan tail).fault⟩ := by
    rw [scan, String.toList_append]
    refine (hreads.run_append tail.toList).trans ?_
    rw [hreads.withRest_eq_behind hcolumn, run_behind]
    rfl
  refine ⟨e.tokens.toList, ?_, ?_⟩
  · rw [scan, hreads.run]
    exact Array.toList_push
  · rw [hrun, ← String.length_toList]
    refine ⟨?_, rfl, rfl, rfl, rfl, rfl⟩
    rw [behind, Array.toList_append, Array.toList_map]

/-- A text literal and a comment of two lines each, before a text that breaks off in a literal. -/
theorem scan_append_twoLines :
    (scan "\"a\nb\" /*\n*/ x\n").fault = none ∧
      (scan "\"a\nb\" /*\n*/ x\n").scanner.reports = [] ∧
      (scan ("\"a\nb\" /*\n*/ x\n" ++ "y @ 'z")).scanner.reports =
        (scan "y @ 'z").scanner.reports.map (Diagnostic.lowered 3) ∧
      (scan ("\"a\nb\" /*\n*/ x\n" ++ "y @ 'z")).scanner.line = 3 + (scan "y @ 'z").scanner.line := by
  have hfault : (scan "\"a\nb\" /*\n*/ x\n").fault = none := by decide +kernel
  have hreports : (scan "\"a\nb\" /*\n*/ x\n").scanner.reports = [] := by decide +kernel
  obtain ⟨_, _, _, hbehind, _, _, hlines, _⟩ :=
    scan_append_line "y @ 'z" (by decide +kernel) hfault hreports
  exact ⟨hfault, hreports, hbehind, hlines⟩

end Scriptlet
