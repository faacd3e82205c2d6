import Scriptlet.Proofs.TerminatorMistakes

/-! # Lines and the order of tokens

Every line break of a text is a token, wherever it stands: between statements, in a text literal or in
a comment. So the line of a token is told by the line breaks before it in the list, and the tokens
stand in the order of their places (`scan_lines`). This holds of every text, also of what has been read
of one before a fault.

A scan in progress keeps two things. Its tokens are placed (`Scanner.Placed`), whatever the text is; and
its line is that of the text that has been read (`Scanner.AtLine`).
-/
namespace Scriptlet

open Text Scanner

/-! ## The line of what has been read -/

namespace Scanner

variable {s s' : Scanner} {source : List Char}

/-- The scan is one of the source, and on the line that follows the line breaks that it has read. -/
structure AtLine (source : List Char) (s : Scanner) : Prop where
  isOf : IsOf source s
  line : s.line = 1 + (source.take s.position).count '\n'

theorem AtLine.passChars (h : AtLine source s) {cs : List Char} (hcs : cs <+: s.rest) (b : Bool) :
    AtLine source (s.passChars b cs) := by
  refine ⟨h.isOf.passChars b cs, ?_⟩
  rw [line_passChars, position_passChars, h.isOf.take_add hcs, h.line, List.count_append,
    Nat.add_assoc]

/-- **Every piece is read with its lines.** -/
theorem AtLine.pass (h : AtLine source s) {p : Piece} (hp : p.Begins s.rest) :
    AtLine source (s.pass p).1 := by
  have hchars := h.passChars hp.1 p.isComment
  cases p with
  | lexeme l k content => cases content <;> exact ⟨hchars.isOf, hchars.line⟩
  | blank | lineBreak | lineComment | blockComment => exact hchars
  | strange | openComment => exact ⟨hchars.isOf, hchars.line⟩
  | openText mark body =>
    refine ⟨hchars.isOf.advance 1, ?_⟩
    exact hchars.line.trans (by rw [← hchars.isOf.take_of_rest_nil hp.rest_openText 1]; rfl)

end Scanner

/-! ## The places of tokens -/

/-- How many line breaks are among the tokens. -/
def lineBreaks (ts : List Token) : Nat :=
  ts.countP fun t => t.kind = .newline

@[simp] theorem lineBreaks_concat (ts : List Token) (t : Token) :
    lineBreaks (ts ++ [t]) = lineBreaks ts + if t.kind = .newline then 1 else 0 := by
  simp [lineBreaks, List.countP_append, List.countP_singleton]

/-- Tokens that stand on the lines that the line breaks before them tell, in the order of their
places. -/
structure TokensPlaced (ts : List Token) : Prop where
  line : ∀ (before : List Token) (t : Token), before ++ [t] <+: ts →
    t.pos.line = 1 + lineBreaks before
  ordered : ts.Pairwise fun t u => t.pos.UpTo u.pos

theorem Pos.UpTo.trans {p q r : Pos} (h : p.UpTo q) (h' : q.UpTo r) : p.UpTo r := by
  unfold Pos.UpTo at h h' ⊢
  omega

/-- One more token, on the current line and not before any other. -/
theorem TokensPlaced.concat {ts : List Token} {t : Token} (h : TokensPlaced ts)
    (hline : t.pos.line = 1 + lineBreaks ts) (hbefore : ∀ u ∈ ts, u.pos.UpTo t.pos) :
    TokensPlaced (ts ++ [t]) := by
  constructor
  · intro before u hstart
    rcases List.prefix_concat_iff.mp hstart with heq | hstart
    · obtain ⟨rfl, hu⟩ := List.append_inj' heq rfl
      rw [List.singleton_inj.mp hu, hline]
    · exact h.line before u hstart
  · refine List.pairwise_append.mpr ⟨h.ordered, List.pairwise_singleton _ _, ?_⟩
    intro u hu v hv
    rw [List.mem_singleton.mp hv]
    exact hbefore u hu

namespace Scanner

variable {s s' : Scanner} {source : List Char}

/-- The tokens of a scan in progress are placed, none behind the place that has been reached, and
the line breaks among them tell its line. -/
structure Placed (s : Scanner) : Prop where
  tokens : TokensPlaced s.tokens.toList
  upTo : ∀ t ∈ s.tokens.toList, t.pos.UpTo s.pos
  line : s.line = 1 + lineBreaks s.tokens.toList

/-- The scan goes on along its line. -/
theorem Placed.move (h : s.Placed) (htokens : s'.tokens = s.tokens) (hline : s'.line = s.line)
    (hpos : s.pos.UpTo s'.pos) : s'.Placed := by
  refine ⟨?_, ?_, ?_⟩ <;> rw [htokens]
  · exact h.tokens
  · exact fun t ht => (h.upTo t ht).trans hpos
  · rw [hline, h.line]

theorem Placed.advance (h : s.Placed) (n : Nat) : (s.advance n).Placed :=
  h.move rfl rfl (pos_advance s n)

/-- A token is recorded at the current place; the line is the next one behind a line break. -/
theorem Placed.push (h : s.Placed) {kind : TokenKind} {content : TokenContent}
    (htokens : s'.tokens = s.tokens.push ⟨kind, content, s.pos⟩)
    (hline : s'.line = s.line + if kind = .newline then 1 else 0) (hpos : s.pos.UpTo s'.pos) :
    s'.Placed := by
  have hlist : s'.tokens.toList = s.tokens.toList ++ [⟨kind, content, s.pos⟩] := by
    rw [htokens, Array.toList_push]
  refine ⟨?_, ?_, ?_⟩ <;> rw [hlist]
  · refine h.tokens.concat ?_ h.upTo
    show (s.line : Int) = _
    rw [h.line, Int.natCast_add]
    rfl
  · intro t ht
    rcases List.mem_append.mp ht with hold | hnew
    · exact (h.upTo t hold).trans hpos
    · rw [List.mem_singleton.mp hnew]
      exact hpos
  · rw [hline, h.line, lineBreaks_concat, Nat.add_assoc]

theorem Placed.emit (h : s.Placed) {kind : TokenKind} (hkind : kind ≠ .newline)
    (content : TokenContent) : (s.emit kind content).Placed :=
  h.push rfl (by simp [Scanner.emit, hkind]) (Pos.UpTo.refl _)

theorem Placed.breakLine (h : s.Placed) : s.breakLine.Placed :=
  h.push rfl rfl (pos_breakLine s).upTo

theorem keeps_placed : Keeps Placed where
  advance n h := h.advance n
  breakLine h := h.breakLine
  word v _ hkind h := h.emit hkind.1 v
  report _ h := h.move rfl rfl (Pos.UpTo.refl _)

/-- **Every piece keeps the tokens placed.** -/
theorem Placed.pass (h : s.Placed) {text : List Char} {p : Piece} (hp : p.Found text) :
    (s.pass p).1.Placed :=
  keeps_placed.pass h hp fun _ _ hx _ => (h.emit (Lexeme.sign hx).kind_ne.1 _).advance _

/-- **A whole scan** ends in a state that is placed and at its line, with the end marked behind its
tokens unless there is a fault. -/
theorem Placed.run (h : s.Placed) (hline : AtLine source s) :
    ∃ e : Scanner, e.Placed ∧ AtLine source e ∧ s.run.scanner.position = e.position ∧
      s.run.scanner.line = e.line ∧ (s.run.scanner.tokens.toList = e.tokens.toList ∨
        s.run.scanner.tokens.toList = e.tokens.toList ++ [Token.endOfFile]) := by
  induction s using pass_induction with
  | nil s hrest =>
    rw [run_of_rest_nil hrest]
    exact ⟨s, h, hline, rfl, rfl, .inr Array.toList_push⟩
  | fault s c cs s' f hrest hpass =>
    have hplaced := h.pass (Piece.found_first c cs)
    have hread := hline.pass (hrest ▸ Piece.begins_first c cs)
    rw [hpass] at hplaced hread
    rw [run_of_fault hrest hpass]
    exact ⟨s', hplaced, hread, rfl, rfl, .inl rfl⟩
  | next s c cs s' hrest hpass ih =>
    have hplaced := h.pass (Piece.found_first c cs)
    have hread := hline.pass (hrest ▸ Piece.begins_first c cs)
    rw [hpass] at hplaced hread
    rw [run_of_pass hrest hpass]
    exact ih hplaced hread

end Scanner

/-- **Line numbers and the order of tokens.** In every scan, also in one that ends with a fault, there
are as many line breaks among the tokens as in the text that has been read, the line of every token is
told by the line breaks before it, the last line by all of them, and no token stands before one that
comes earlier in the list. The mark of the end has no place. -/
theorem scan_lines (source : String) :
    lineBreaks (scan source).scanner.tokens.toList =
        (source.toList.take (scan source).scanner.position).count '\n' ∧
      (∀ (before : List Token) (t : Token), before ++ [t] <+: (scan source).scanner.tokens.toList →
        t.kind ≠ .endOfFile → t.pos.line = 1 + lineBreaks before) ∧
      (scan source).scanner.line = 1 + lineBreaks (scan source).scanner.tokens.toList ∧
      ((scan source).scanner.tokens.toList.filter fun t => t.kind ≠ .endOfFile).Pairwise
        fun t u => t.pos.UpTo u.pos := by
  have hplaced : Scanner.Placed { rest := source.toList } := by
    refine ⟨⟨?_, List.Pairwise.nil⟩, ?_, rfl⟩ <;> simp
  have hline : AtLine source.toList { rest := source.toList } := ⟨rfl, rfl⟩
  obtain ⟨e, he, hread, hposition, hend, htokens⟩ := hplaced.run hline
  have hcount : lineBreaks e.tokens.toList = (source.toList.take e.position).count '\n' := by
    have := he.line.symm.trans hread.line
    omega
  rw [scan, hposition, hend]
  rcases htokens with htokens | htokens <;> rw [htokens]
  · exact ⟨hcount, fun before t hstart _ => he.tokens.line before t hstart, he.line,
      he.tokens.ordered.filter _⟩
  · have hmark : lineBreaks (e.tokens.toList ++ [Token.endOfFile]) = lineBreaks e.tokens.toList :=
      lineBreaks_concat _ _
    rw [hmark]
    refine ⟨hcount, ?_, he.line, ?_⟩
    · intro before t hstart ht
      rcases List.prefix_concat_iff.mp hstart with heq | hstart
      · obtain ⟨-, hlast⟩ := List.append_inj' heq rfl
        rw [List.singleton_inj.mp hlast] at ht
        exact absurd rfl ht
      · exact he.tokens.line before t hstart
    · rw [List.filter_append, show ([Token.endOfFile].filter fun t => t.kind ≠ .endOfFile) = []
        from rfl, List.append_nil]
      exact he.tokens.ordered.filter _

end Scriptlet
