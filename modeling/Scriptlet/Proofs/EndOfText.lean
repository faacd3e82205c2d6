import Scriptlet.Proofs.Columns
import Scriptlet.Proofs.ReadingFaults

/-! # Where a scan ends

Every piece that a scan passes over has characters, so its position grows from piece to piece, and
there are no more pieces than characters. The scan ends where nothing is left to read, or at a
number that cannot be read (`Scanner.EndsAt`).

The position never passes the end of the text, with one exception: a text literal that is not
closed is reported at the end, and one more character is counted behind it (`Scanner.Reached`).
Nothing can come after that, so there is at most one such report, and it is the last one.
-/
namespace Scriptlet

open Text Scanner

/-- The report of a text literal that is not closed. -/
def Diagnostic.IsUnclosedText (d : Diagnostic) : Prop :=
  ∃ mark p, d = .scan (.unclosedText mark) p

namespace Scanner

variable {s s' : Scanner} {source : List Char} {c : Char} {cs : List Char}

/-! ## Every piece is read forward -/

theorem chars_first_ne_nil (c : Char) (cs : List Char) : (Piece.first c cs).chars ≠ [] := by
  have hfound := Piece.found_first c cs
  generalize Piece.first c cs = p at hfound
  cases hfound with
  | lexeme hlexeme => exact hlexeme.ne_nil
  | _ => exact List.cons_ne_nil _ _

/-- **Every step goes forward**, also one that ends with a fault. -/
theorem position_lt_stepAt (h : s.rest = c :: cs) : s.position < (s.stepAt c cs).1.position := by
  have hne := List.length_pos_iff.mpr (chars_first_ne_nil c cs)
  have hchars := position_passChars (Piece.first c cs).isComment s (Piece.first c cs).chars
  rw [stepAt_eq_pass h]
  generalize Piece.first c cs = p at hne hchars
  have hle : (s.passChars p.isComment p.chars).position ≤ (s.pass p).1.position := by
    cases p with
    | lexeme _ _ content => cases content <;> exact Nat.le_refl _
    | openText => exact Nat.le_add_right _ 1
    | _ => exact Nat.le_refl _
  omega

/-! ## How far a scan has come -/

/-- How far the scan of a source has come: what has not been read is ahead, and no text literal was
found that is not closed; or it is one behind the end, where such a literal has just been reported.
-/
inductive Reached (source : List Char) (s : Scanner) : Prop
  | within (hpos : s.position + s.rest.length = source.length)
      (hclosed : ∀ d ∈ s.reports, ¬ d.IsUnclosedText)
  | behind {earlier : List Diagnostic} {d : Diagnostic} (hrest : s.rest = [])
      (hpos : s.position = source.length + 1) (hreports : s.reports = earlier ++ [d])
      (hd : d.IsUnclosedText) (hclosed : ∀ e ∈ earlier, ¬ e.IsUnclosedText)

theorem reached_start (source : List Char) : Reached source { rest := source } :=
  .within (Nat.zero_add _) fun _ hd => absurd hd List.not_mem_nil

/-- What is ahead of a scan that has something to read. -/
theorem Reached.of_rest (h : Reached source s) (hrest : s.rest ≠ []) :
    s.position + s.rest.length = source.length ∧ ∀ d ∈ s.reports, ¬ d.IsUnclosedText := by
  cases h with
  | within hpos hclosed => exact ⟨hpos, hclosed⟩
  | behind hnil => exact absurd hnil hrest

/-- One more report, of something else. -/
theorem not_isUnclosedText_concat {ds : List Diagnostic} {problem : ScanProblem} {p : Pos}
    (h : ∀ d ∈ ds, ¬ d.IsUnclosedText) (hproblem : ∀ mark, problem ≠ .unclosedText mark) :
    ∀ d ∈ ds ++ [.scan problem p], ¬ d.IsUnclosedText := by
  intro d hd
  rcases List.mem_append.mp hd with hold | hnew
  · exact h d hold
  · rw [List.mem_singleton.mp hnew]
    rintro ⟨mark, q, heq⟩
    cases heq
    exact hproblem mark rfl

/-- **How far a piece takes the scan.** -/
theorem Reached.pass (h : Reached source s) (hrest : s.rest ≠ []) {p : Piece}
    (hp : p.Begins s.rest) :
    Reached source (s.pass p).1 := by
  obtain ⟨hpos, hclosed⟩ := h.of_rest hrest
  have hlength := hp.1.length_le
  have hchars : (s.passChars p.isComment p.chars).position +
      (s.passChars p.isComment p.chars).rest.length = source.length := by
    rw [position_passChars, rest_passChars, List.length_drop]
    omega
  have hquiet : ∀ d ∈ (s.passChars p.isComment p.chars).reports, ¬ d.IsUnclosedText := by
    rwa [reports_passChars]
  cases p with
  | lexeme _ _ content => cases content <;> exact .within hchars hquiet
  | blank | lineBreak | lineComment | blockComment => exact .within hchars hquiet
  | strange | openComment =>
    exact .within hchars (not_isUnclosedText_concat hquiet fun _ hproblem => by cases hproblem)
  | openText mark body =>
    have hend : (s.passChars false (mark :: body)).rest = [] := hp.rest_openText
    have hrest' : (s.pass (.openText mark body)).1.rest = [] := by
      show (s.passChars false (mark :: body)).rest.drop 1 = []
      rw [hend]
      rfl
    have hpos' : (s.pass (.openText mark body)).1.position = source.length + 1 := by
      show (s.passChars false (mark :: body)).position + 1 = source.length + 1
      rw [← hchars]
      show _ = (s.passChars false (mark :: body)).position +
        (s.passChars false (mark :: body)).rest.length + 1
      rw [hend]
      rfl
    have hreports : (s.pass (.openText mark body)).1.reports =
        s.reports ++ [.scan (.unclosedText mark) (s.passChars false (mark :: body)).pos] :=
      congrArg (· ++ _) (reports_passChars false s (mark :: body))
    exact .behind hrest' hpos' hreports ⟨mark, _, rfl⟩ hclosed

namespace AtHead

variable {ps : List Piece}

/-- How far the scan has come where it looks for a piece. -/
theorem reached (h : AtHead source ps s) : Reached source s := by
  induction h with
  | start => exact reached_start source
  | next _ hrest hstep ih =>
    rename_i ps s s' c cs _
    have hpass := ih.pass (hrest ▸ List.cons_ne_nil c cs) (hrest ▸ Piece.begins_first c cs)
    rwa [← stepAt_eq_pass hrest, hstep] at hpass

/-- There are no more pieces than characters. -/
theorem length_add_le (h : AtHead source ps s) : ps.length + s.rest.length ≤ source.length := by
  induction h with
  | start => exact Nat.le_of_eq (Nat.zero_add _)
  | next _ hrest hstep ih =>
    rename_i ps s s' c cs _
    have hshorter : s'.rest.length < s.rest.length := by
      have hstepped := length_rest_stepAt s hrest
      rwa [hstep] at hstepped
    rw [List.length_append, List.length_singleton]
    omega

/-- There is something to read exactly if the position lies inside of the source. -/
theorem rest_ne_nil_iff (h : AtHead source ps s) : s.rest ≠ [] ↔ s.position < source.length := by
  cases h.reached with
  | within hpos =>
    rw [← List.length_pos_iff]
    omega
  | behind hrest hpos =>
    rw [hrest, hpos]
    exact iff_of_false (fun hne => hne rfl) (by omega)

end AtHead

/-! ## How a scan ends -/

/-- The end of a scan, seen from the place where it has looked for a piece last: nothing was left,
and the end is marked; or there was a number that cannot be read. -/
inductive EndsAt (s : Scanner) : Result → Prop
  | finished (hrest : s.rest = []) :
      EndsAt s ⟨{ s with tokens := s.tokens.push Token.endOfFile }, none⟩
  | badNumber {c : Char} {cs l : List Char} {s' : Scanner} {f : Fault} (hrest : s.rest = c :: cs)
      (hnumber : Lexeme l .number (.error f)) (hfront : l <+: c :: cs)
      (hstep : s.stepAt c cs = (s', some f)) : EndsAt s ⟨s', some f⟩

/-- **Every scan ends**, behind the pieces that it has passed over. -/
theorem AtHead.exists_endsAt {ps : List Piece} (h : AtHead source ps s) :
    ∃ qs e, AtHead source qs e ∧ e.EndsAt s.run := by
  induction s using pass_induction generalizing ps with
  | nil s hrest => exact ⟨ps, s, h, run_of_rest_nil hrest ▸ .finished hrest⟩
  | fault s c cs s' f hrest hpass =>
    obtain ⟨l, hnumber, hfront⟩ := number_of_pass hpass
    have hstep : s.stepAt c cs = (s', some f) := (stepAt_eq_pass hrest).trans hpass
    exact ⟨ps, s, h, run_of_fault hrest hpass ▸ .badNumber hrest hnumber hfront hstep⟩
  | next s c cs s' hrest hpass ih =>
    rw [run_of_pass hrest hpass]
    exact ih (h.next hrest ((stepAt_eq_pass hrest).trans hpass))

end Scanner

/-- How the scan of a text has ended that met no fault: all of it was read, and every text literal
in it is closed; or the last report, and no other, is that of one that is not closed, and the
position is one behind the end. -/
def Scanner.AllRead (source : String) (s : Scanner) : Prop :=
  (s.position = source.length ∧ ∀ d ∈ s.reports, ¬ d.IsUnclosedText) ∨
    s.position = source.length + 1 ∧ ∃ earlier d, s.reports = earlier ++ [d] ∧ d.IsUnclosedText ∧
      ∀ e ∈ earlier, ¬ e.IsUnclosedText

/-- **A scan ends at the end of the text.** Wherever it looks for a piece, there is one exactly if
the position lies inside of the text, and the step to it makes the position grow. The steps are no
more than the characters, and the scan ends behind the last of them: with the mark of the end, or
with the fault of a number that cannot be read. If it meets no such fault, all has been read, the
last token marks the end, and no other does. -/
theorem scan_reaches_end (source : String) :
    (∀ ps s, AtHead source.toList ps s → ps.length ≤ source.length ∧
      (s.rest ≠ [] ↔ s.position < source.length) ∧
      ∀ c cs, s.rest = c :: cs → s.position < (s.stepAt c cs).1.position) ∧
    (∃ ps s, AtHead source.toList ps s ∧ s.EndsAt (scan source)) ∧
    (∀ f, (scan source).fault = some f → f.IsBadNumber) ∧
    ((scan source).fault = none → (scan source).scanner.AllRead source ∧
      EndsOnce (scan source).scanner.tokens.toList) := by
  have hstart : AtHead source.toList [] { rest := source.toList } := .start
  obtain ⟨qs, e, hhead, hends⟩ := hstart.exists_endsAt
  have hlength : source.toList.length = source.length := String.length_toList
  refine ⟨fun ps s hs => ⟨?_, hlength ▸ hs.rest_ne_nil_iff, fun c cs hrest => ?_⟩,
    ⟨qs, e, hhead, hends⟩, fun f hf => isBadNumber_of_run hf,
    fun hfault => ⟨?_, endsOnce_scan hfault⟩⟩
  · exact hlength ▸ Nat.le_trans (Nat.le_add_right _ _) hs.length_add_le
  · exact position_lt_stepAt hrest
  · change e.EndsAt (scan source) at hends
    generalize scan source = r at hends hfault
    cases hends with
    | badNumber => cases hfault
    | finished hrest =>
      cases hhead.reached with
      | within hpos hclosed =>
        rw [hrest, hlength] at hpos
        exact .inl ⟨hpos, hclosed⟩
      | behind _ hpos hreports hd hclosed =>
        rw [hlength] at hpos
        exact .inr ⟨hpos, _, _, hreports, hd, hclosed⟩

/-- The text literal is not closed: all four characters have been read, and the position is five. -/
theorem openQuote_allRead : (scan "x 'a").fault = none ∧ (scan "x 'a").scanner.AllRead "x 'a" ∧
    EndsOnce (scan "x 'a").scanner.tokens.toList ∧ (scan "x 'a").scanner.position = 5 := by
  have hfault : (scan "x 'a").fault = none := by decide +kernel
  obtain ⟨hread, hends⟩ := (scan_reaches_end "x 'a").2.2.2 hfault
  exact ⟨hfault, hread, hends, by decide +kernel⟩

end Scriptlet
