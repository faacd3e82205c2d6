import Scriptlet.Proofs.ScanRules

/-! # Columns

The column of a scan is kept up from character to character. Between two pieces it is the number of
characters that have been read of the current line, as long as the last line break was not one inside
of a comment: there the new line is begun before the break, which is then counted with it. So all that
follows such a comment on its last line stands one column too far to the right.

`scan_columns` says so of all the places where a piece begins (`Scanner.AtHead`), and of all signs, which
are recorded where they begin.
-/
namespace Scriptlet

open Text Scanner

/-! ## Lines of a text -/

/-- The index at which the last line of a text begins: the one behind its last line break. -/
def lineStart (text : List Char) : Nat :=
  (text.reverse.dropWhile (· ≠ '\n')).length

@[simp] theorem lineStart_concat (text : List Char) (c : Char) :
    lineStart (text ++ [c]) = if c = '\n' then text.length + 1 else lineStart text := by
  by_cases hc : c = '\n' <;> simp [lineStart, hc]

/-- Whether the last line break in some pieces stands inside of a comment. -/
def lastBreakInComment (ps : List Piece) : Bool :=
  (ps.filter fun p => '\n' ∈ p.chars).getLast?.any Piece.isComment

theorem lastBreakInComment_concat (ps : List Piece) (p : Piece) :
    lastBreakInComment (ps ++ [p]) =
      if '\n' ∈ p.chars then p.isComment else lastBreakInComment ps := by
  by_cases hp : '\n' ∈ p.chars <;> simp [lastBreakInComment, hp]

namespace Scanner

variable {s s' : Scanner} {source : List Char} {k : Nat}

/-! ## The column of a scan -/

/-- **The scan of the source is about to look for a piece**, behind the pieces `ps`. -/
inductive AtHead (source : List Char) : List Piece → Scanner → Prop
  | start : AtHead source [] { rest := source }
  | next {ps : List Piece} {s s' : Scanner} {c : Char} {cs : List Char} (h : AtHead source ps s)
      (hrest : s.rest = c :: cs) (hstep : s.stepAt c cs = (s', none)) :
      AtHead source (ps ++ [Piece.first c cs]) s'

/-- The scan stands `k` columns behind the place that it has reached in its line. -/
structure InColumn (source : List Char) (s : Scanner) (k : Nat) : Prop where
  isOf : IsOf source s
  column : s.column + lineStart (source.take s.position) = s.position + k

/-- A line break puts the column right, unless it stands inside of a comment; nothing else changes how
far off it is. -/
theorem InColumn.passChar (h : InColumn source s k) {c : Char} {cs : List Char}
    (hrest : s.rest = c :: cs) (b : Bool) :
    InColumn source (s.passChar b c) (if c = '\n' then b.toNat else k) := by
  have htake : source.take (s.position + 1) = source.take s.position ++ [c] :=
    h.isOf.take_add (show [c] <+: s.rest from ⟨cs, hrest.symm⟩)
  have hlength := h.isOf.length_take (by simp [hrest])
  have hcolumn := h.column
  refine ⟨h.isOf.passChars b [c], ?_⟩
  unfold Scanner.passChar
  by_cases hc : c = '\n'
  · rw [if_pos hc, if_pos hc]
    cases b with
    | true =>
      show 0 + 1 + lineStart (source.take (s.position + 1)) = s.position + 1 + 1
      rw [htake, lineStart_concat, if_pos hc, hlength]
      exact Nat.add_comm _ _
    | false =>
      show 0 + lineStart (source.take (s.position + 1)) = s.position + 1
      rw [htake, lineStart_concat, if_pos hc, hlength]
      exact Nat.zero_add _
  · rw [if_neg hc, if_neg hc]
    show s.column + 1 + lineStart (source.take (s.position + 1)) = s.position + 1 + k
    rw [htake, lineStart_concat, if_neg hc]
    omega

theorem InColumn.passChars (h : InColumn source s k) {cs : List Char} (hcs : cs <+: s.rest)
    (b : Bool) : InColumn source (s.passChars b cs) (if '\n' ∈ cs then b.toNat else k) := by
  induction cs generalizing s k with
  | nil => exact h
  | cons c cs ih =>
    obtain ⟨more, hmore⟩ := hcs
    have hone := h.passChar hmore.symm b
    have hrest : cs <+: (s.passChar b c).rest := by
      have hdrop : (s.passChars b [c]).rest = s.rest.drop 1 := rest_passChars b s [c]
      exact ⟨more, by rw [show s.passChar b c = s.passChars b [c] from rfl, hdrop, ← hmore]; rfl⟩
    rw [passChars_cons]
    have hall := ih hone hrest
    by_cases hmem : '\n' ∈ cs
    · simpa [hmem] using hall
    · by_cases hc : c = '\n'
      · simpa [hmem, hc] using hall
      · simpa [hmem, hc, Ne.symm hc] using hall

/-- Behind the end of the source, position and column go on together. -/
theorem InColumn.advance_of_rest_nil (h : InColumn source s k) (hrest : s.rest = []) (n : Nat) :
    InColumn source (s.advance n) k := by
  refine ⟨h.isOf.advance n, ?_⟩
  show s.column + n + lineStart (source.take (s.position + n)) = s.position + n + k
  have hcolumn := h.column
  rw [h.isOf.take_of_rest_nil hrest]
  omega

/-- **A piece with a line break puts the column right**, unless it is a comment. -/
theorem InColumn.pass (h : InColumn source s k) {p : Piece} (hp : p.Begins s.rest) :
    InColumn source (s.pass p).1 (if '\n' ∈ p.chars then p.isComment.toNat else k) := by
  have hchars := h.passChars hp.1 p.isComment
  cases p with
  | lexeme l kind content => cases content <;> exact ⟨hchars.isOf, hchars.column⟩
  | blank | lineBreak | lineComment | blockComment => exact hchars
  | strange | openComment => exact ⟨hchars.isOf, hchars.column⟩
  | openText mark body =>
    have hreport : InColumn source
        ((s.passChars false (mark :: body)).report (.unclosedText mark)) _ :=
      ⟨hchars.isOf, hchars.column⟩
    exact hreport.advance_of_rest_nil hp.rest_openText 1

/-- **How far off the column is between two pieces.** -/
theorem AtHead.inColumn {ps : List Piece} (h : AtHead source ps s) :
    InColumn source s (lastBreakInComment ps).toNat := by
  induction h with
  | start => exact ⟨rfl, rfl⟩
  | next _ hrest hstep ih =>
    rename_i ps s s' c cs _
    rw [stepAt_eq_pass hrest] at hstep
    have hpass := ih.pass (hrest ▸ Piece.begins_first c cs)
    rw [hstep] at hpass
    rw [lastBreakInComment_concat, apply_ite Bool.toNat]
    exact hpass

/-! ## Signs -/

/-- The token is recorded at a place where a piece begins, and the source goes on with what it
says. -/
def BeginsAt (source : List Char) (t : Token) (ps : List Piece) (s : Scanner) : Prop :=
  AtHead source ps s ∧ t.pos = s.pos ∧
    ∃ x : String, t.content = .text x ∧ x.toList <+: source.drop s.position

/-- All signs that have been found are recorded where they begin. -/
def SignsBegin (source : List Char) (s : Scanner) : Prop :=
  ∀ t ∈ s.tokens.toList, isSign t.kind = true → ∃ ps s₀, BeginsAt source t ps s₀

/-- One more token. -/
theorem SignsBegin.push (h : SignsBegin source s) {t : Token}
    (htokens : s'.tokens = s.tokens.push t)
    (ht : isSign t.kind = true → ∃ ps s₀, BeginsAt source t ps s₀) : SignsBegin source s' := by
  intro u hu
  rw [htokens, Array.toList_push] at hu
  rcases List.mem_append.mp hu with hold | hnew
  · exact h u hold
  · rw [List.mem_singleton.mp hnew]
    exact ht

theorem keeps_signsBegin (source : List Char) : Keeps (SignsBegin source) where
  advance _ h := h
  breakLine h := h.push rfl fun hsign =>
    absurd (show isSign .newline = true from hsign) (by decide)
  word _ hsign _ h := h.push rfl fun hother => absurd (hsign.symm.trans hother) (by decide)
  report _ h := h

/-- A sign is recorded at the place where the scan looks for a piece. -/
theorem SignsBegin.pass (h : SignsBegin source s) {ps : List Piece} (hs : AtHead source ps s)
    {p : Piece} (hp : p.Found s.rest) : SignsBegin source (s.pass p).1 := by
  refine (keeps_signsBegin source).pass h hp fun x k _ hx => ?_
  rw [show s.rest = source.drop s.position from hs.inColumn.isOf] at hx
  exact h.push rfl fun _ => ⟨ps, s, hs, rfl, x, rfl, hx⟩

theorem SignsBegin.run (h : SignsBegin source s) {ps : List Piece} (hs : AtHead source ps s) :
    SignsBegin source s.run.scanner := by
  induction s using pass_induction generalizing ps with
  | nil s hrest =>
    rw [run_of_rest_nil hrest]
    exact h.push rfl fun hsign => absurd hsign (by decide)
  | fault s c cs s' f hrest hpass =>
    have hnext := h.pass hs (hrest ▸ Piece.found_first c cs)
    rw [hpass] at hnext
    rw [run_of_fault hrest hpass]
    exact hnext
  | next s c cs s' hrest hpass ih =>
    have hnext := h.pass hs (hrest ▸ Piece.found_first c cs)
    rw [hpass] at hnext
    rw [run_of_pass hrest hpass]
    exact ih hnext (hs.next hrest (by rw [stepAt_eq_pass hrest, hpass]))

end Scanner

/-- **Columns are offsets, but for comments of more than one line.** Wherever the scan looks for a
piece, the column and the index at which the line begins make up the position, except that the column is
one too many if the last line break stands inside of a comment. Every sign is recorded at such a place,
so its column is the offset of its first character in its line, or one more. -/
theorem scan_columns (source : String) :
    (∀ ps s, AtHead source.toList ps s →
      s.column + lineStart (source.toList.take s.position) =
        s.position + if lastBreakInComment ps then 1 else 0) ∧
      ∀ t ∈ (scan source).scanner.tokens.toList, isSign t.kind = true →
        ∃ ps s, BeginsAt source.toList t ps s ∧
          t.pos.column + lineStart (source.toList.take s.position) =
            s.position + if lastBreakInComment ps then 1 else 0 := by
  have hheads : ∀ ps s, AtHead source.toList ps s →
      s.column + lineStart (source.toList.take s.position) =
        s.position + if lastBreakInComment ps then 1 else 0 := by
    intro ps s hs
    rw [hs.inColumn.column]
    cases lastBreakInComment ps <;> rfl
  refine ⟨hheads, fun t ht hsign => ?_⟩
  have hstart : SignsBegin source.toList { rest := source.toList } := fun u hu => by cases hu
  obtain ⟨ps, s, hbegins⟩ := hstart.run .start t ht hsign
  refine ⟨ps, s, hbegins, ?_⟩
  rw [hbegins.2.1]
  have hcolumn := hheads ps s hbegins.1
  generalize lastBreakInComment ps = inComment at hcolumn ⊢
  cases inComment with
  | true =>
    show (s.column : Int) + _ = s.position + 1
    exact Int.ofNat_inj.mpr hcolumn
  | false =>
    show (s.column : Int) + _ = s.position + 0
    exact Int.ofNat_inj.mpr hcolumn

/-- The plus sign stands at index 5, on a line that begins at index 3; its column is not 2, because the
line break stands inside of a comment. -/
theorem plusBehindComment_column :
    "/*\n*/+".toList[5]? = some '+' ∧ lineStart ("/*\n*/+".toList.take 5) = 3 ∧
      (scan "/*\n*/+").scanner.tokens.toList =
        [⟨.newline, .text "\\n", ⟨1, 2⟩⟩, ⟨.plus, .text "+", ⟨2, 3⟩⟩, Token.endOfFile] := by
  decide +kernel

end Scriptlet
