import Scriptlet.Proofs.ScanRules
import Scriptlet.Proofs.TerminatorSteps

/-! # Where a mistake with a terminator leads

A terminator in the wrong place is reported, and the token behind it is settled without being looked
at. Behind the last terminator of a program that token can be the mark of the end, and then the walk
leads out of the tokens. No other mistake does: `normalize_scan_mistakes` says that normalizing a
scanned text fails exactly if a mistake is reported at the token before the end.

To find the token that a report is about we need that no two terminators stand at one place; this is
`Scanner.InOrder`, which every scan keeps.
-/
namespace Scriptlet

open Text

/-! ## Terminators stand at places of their own -/

/-- One place stands before another. -/
def Pos.Before (p q : Pos) : Prop :=
  p.line < q.line ∨ p.line = q.line ∧ p.column < q.column

/-- One place does not stand behind another. -/
def Pos.UpTo (p q : Pos) : Prop :=
  p.line < q.line ∨ p.line = q.line ∧ p.column ≤ q.column

namespace Pos

variable {p q r : Pos}

theorem Before.ne (h : p.Before q) : p ≠ q := by
  rintro rfl
  unfold Before at h
  omega

theorem Before.upTo (h : p.Before q) : p.UpTo q := by
  unfold Before at h
  unfold UpTo
  omega

theorem Before.trans_upTo (h : p.Before q) (h' : q.UpTo r) : p.Before r := by
  unfold Before at h ⊢
  unfold UpTo at h'
  omega

theorem UpTo.refl (p : Pos) : p.UpTo p :=
  .inr ⟨rfl, Int.le_refl _⟩

end Pos

namespace Scanner

variable {s s' : Scanner}

theorem pos_advance (s : Scanner) (n : Nat) : s.pos.UpTo (s.advance n).pos := by
  refine .inr ⟨rfl, ?_⟩
  simp only [pos, advance]
  omega

theorem pos_advance_of_pos (s : Scanner) {n : Nat} (h : 0 < n) :
    s.pos.Before (s.advance n).pos := by
  refine .inr ⟨rfl, ?_⟩
  simp only [pos, advance]
  omega

theorem pos_breakLine (s : Scanner) : s.pos.Before s.breakLine.pos := by
  refine .inl ?_
  simp only [pos, breakLine, emit]
  omega

/-- The tokens of a scan in progress: the end is not among them, and terminators stand before all
that comes behind them. -/
structure InOrder (s : Scanner) : Prop where
  plain : ∀ t ∈ s.tokens.toList, t.kind ≠ .endOfFile
  before : ∀ t ∈ s.tokens.toList, t.IsTerminator → t.pos.Before s.pos
  pairwise : s.tokens.toList.Pairwise fun t u => t.IsTerminator → t.pos.Before u.pos

/-- The scan goes on without a token. -/
theorem InOrder.move (h : s.InOrder) (htokens : s'.tokens = s.tokens)
    (hpos : s.pos.UpTo s'.pos) : s'.InOrder := by
  refine ⟨?_, ?_, ?_⟩ <;> rw [htokens]
  · exact h.plain
  · intro t ht hterm
    exact (h.before t ht hterm).trans_upTo hpos
  · exact h.pairwise

theorem InOrder.advance (h : s.InOrder) (n : Nat) : (s.advance n).InOrder :=
  h.move rfl (pos_advance s n)

/-- A token is recorded, and the scan then stands behind it. -/
theorem InOrder.push (h : s.InOrder) {kind : TokenKind} {content : TokenContent}
    (htokens : s'.tokens = s.tokens.push ⟨kind, content, s.pos⟩) (hkind : kind ≠ .endOfFile)
    (hpos : s.pos.UpTo s'.pos)
    (hterm : kind = .newline ∨ kind = .semicolon → s.pos.Before s'.pos) : s'.InOrder := by
  have hlist : s'.tokens.toList = s.tokens.toList ++ [⟨kind, content, s.pos⟩] := by
    rw [htokens, Array.toList_push]
  refine ⟨?_, ?_, ?_⟩
  · intro t ht
    rcases List.mem_append.mp (hlist ▸ ht) with hold | hnew
    · exact h.plain t hold
    · rw [List.mem_singleton.mp hnew]
      exact hkind
  · intro t ht
    rcases List.mem_append.mp (hlist ▸ ht) with hold | hnew
    · exact fun hold' => (h.before t hold hold').trans_upTo hpos
    · rw [List.mem_singleton.mp hnew]
      exact hterm
  · rw [hlist]
    refine List.pairwise_append.mpr ⟨h.pairwise, List.pairwise_singleton _ _, ?_⟩
    intro t ht u hu
    rw [List.mem_singleton.mp hu]
    exact h.before t ht

theorem InOrder.breakLine (h : s.InOrder) : s.breakLine.InOrder := by
  have htokens : s.breakLine.tokens = s.tokens.push ⟨.newline, .text "\\n", s.pos⟩ := rfl
  exact h.push htokens (by decide) (pos_breakLine s).upTo fun _ => pos_breakLine s

theorem keeps_inOrder : Keeps InOrder where
  advance n h := h.advance n
  breakLine h := h.breakLine
  word v hsign hkind h := h.push rfl hkind.2 (Pos.UpTo.refl _) (by
    rintro (rfl | rfl)
    · exact absurd rfl hkind.1
    · exact absurd hsign (by decide))
  report _ h := h.move rfl (Pos.UpTo.refl _)

/-- **Every piece keeps the order.** -/
theorem InOrder.pass (h : s.InOrder) {text : List Char} {p : Piece} (hp : p.Found text) :
    (s.pass p).1.InOrder :=
  keeps_inOrder.pass h hp fun _ _ hx _ =>
    h.push rfl (Lexeme.sign hx).kind_ne.2 (pos_advance s _) fun _ =>
      pos_advance_of_pos s (signs_ne_nil _ hx)

/-- **The tokens of a whole scan** that meets no fault are in order, and the end stands behind
them. -/
theorem InOrder.run (h : s.InOrder) (hfault : s.run.fault = none) :
    ∃ e : Scanner, e.InOrder ∧ s.run.scanner.tokens.toList = e.tokens.toList ++ [Token.endOfFile] := by
  induction s using pass_induction with
  | nil s hrest =>
    rw [run_of_rest_nil hrest]
    exact ⟨s, h, Array.toList_push⟩
  | fault s c cs s' f hrest hpass =>
    rw [run_of_fault hrest hpass] at hfault
    cases hfault
  | next s c cs s' hrest hpass ih =>
    have hnext := h.pass (Piece.found_first c cs)
    rw [hpass] at hnext
    rw [run_of_pass hrest hpass] at hfault ⊢
    exact ih hnext hfault

end Scanner

/-! ## Where a walk ends -/

/-- A mistake with a terminator at the place `p`. -/
def Diagnostic.IsMistakeAt (d : Diagnostic) (p : Pos) : Prop :=
  ∃ problem, d = .terminator problem p

namespace TerminatorWalk

variable {w w' : TerminatorWalk} {t next last : Token} {body rest : List Token} {n : Normalized}

/-- **How a walk over `body` ends**, where the end of the program follows. -/
inductive Ends (last : Token) (w : TerminatorWalk) (body : List Token) (n : Normalized) : Prop
  /-- The end is reached: mistakes have been made before the last token at most. -/
  | finished {w' : TerminatorWalk} (hrun : n = w'.finish last [])
      (hreports : ∀ d ∈ w'.reports, d ∈ w.reports ∨
        ∃ t ∈ body.dropLast, t.IsTerminator ∧ d.IsMistakeAt t.pos)
  /-- The end is passed, because of a mistake at the last token. -/
  | lost {t : Token} (hlast : body.getLast? = some t) (ht : t.IsTerminator)
      (hreport : ∃ d ∈ n.reports, d.IsMistakeAt t.pos) (hfault : n.fault = some .outOfRange)

/-- A token before the others is passed in order. -/
theorem Ends.step (h : Ends last w' (next :: rest) n) (hreports : w'.reports = w.reports) :
    Ends last w (t :: next :: rest) n := by
  cases h with
  | finished hrun hold =>
    refine .finished hrun fun d hd => ?_
    rw [List.dropLast_cons_cons]
    rcases hold d hd with hmem | ⟨u, hu, hmistake⟩
    · exact .inl (hreports ▸ hmem)
    · exact .inr ⟨u, List.mem_cons_of_mem _ hu, hmistake⟩
  | lost hlast ht hreport hfault =>
    exact .lost (by rw [List.getLast?_cons_cons, hlast]) ht hreport hfault

/-- A mistake is made before two others. -/
theorem Ends.mistake {problem : TerminatorProblem} (ht : t.IsTerminator)
    (h : Ends last w' rest n) (hreports : w'.reports = w.reports ++ [.terminator problem t.pos]) :
    Ends last w (t :: next :: rest) n := by
  cases h with
  | finished hrun hold =>
    refine .finished hrun fun d hd => ?_
    rw [List.dropLast_cons_cons]
    rcases hold d hd with hmem | ⟨u, hu, hmistake⟩
    · rw [hreports, List.mem_append, List.mem_singleton] at hmem
      rcases hmem with hmem | hnew
      · exact .inl hmem
      · exact .inr ⟨t, List.mem_cons_self, ht, problem, hnew⟩
    · refine .inr ⟨u, List.mem_cons_of_mem _ ?_, hmistake⟩
      have hne : rest ≠ [] := by
        rintro rfl
        cases hu
      rw [List.dropLast_cons_of_ne_nil hne]
      exact List.mem_cons_of_mem _ hu
  | lost hlast hu hreport hfault =>
    refine .lost ?_ hu hreport hfault
    rw [List.getLast?_cons, List.getLast?_cons, hlast]
    rfl

/-- **Every walk reaches the end or passes it.** A mistake takes two tokens at once, so the induction
goes over the number of tokens. -/
theorem run_ends (hlast : last.kind = .endOfFile) :
    ∀ (body : List Token) (w : TerminatorWalk), (∀ t ∈ body, t.kind ≠ .endOfFile) →
      Ends last w body (w.run (body ++ [last]))
  | [], w, _ => .finished (run_endOfFile hlast) fun d hd => .inl hd
  | [t], w, hbody => by
    rcases run_cases w last [] (hbody t List.mem_cons_self)
      with ⟨w', hstep, hrun⟩ | ⟨ht, problem, other, hrun⟩
    · rw [List.singleton_append, hrun, run_endOfFile hlast]
      exact .finished rfl fun d hd => .inl (hstep.reports ▸ hd)
    · rw [List.singleton_append, hrun]
      exact .lost rfl ht ⟨_, List.mem_append_right _ List.mem_cons_self, problem, rfl⟩ rfl
  | t :: next :: rest, w, hbody => by
    have htail : ∀ u ∈ next :: rest, u.kind ≠ .endOfFile := fun u hu =>
      hbody u (List.mem_cons_of_mem _ hu)
    rcases run_cases w next (rest ++ [last]) (hbody t List.mem_cons_self)
      with ⟨w', hstep, hrun⟩ | ⟨ht, problem, other, hrun⟩
    · rw [List.cons_append, List.cons_append, hrun]
      exact (run_ends hlast (next :: rest) w' htail).step hstep.reports
    · rw [List.cons_append, List.cons_append, hrun]
      exact .mistake ht (run_ends hlast rest _ fun u hu => htail u (List.mem_cons_of_mem _ hu)) rfl

end TerminatorWalk

/-- A mistake with the last token before the end is reported. -/
def Normalized.MistakeAtEnd (n : Normalized) (program : List Token) : Prop :=
  ∃ t, program.dropLast.getLast? = some t ∧ t.IsTerminator ∧
    ∃ d ∈ n.reports, d.IsMistakeAt t.pos

/-- Where terminators stand before what follows them, a mistake before the last token is not taken
for one at the last token. -/
theorem not_mistakeAtEnd {body : List Token} {last : Token} {n : Normalized}
    (horder : body.Pairwise fun t u => t.IsTerminator → t.pos.Before u.pos)
    (hreports : ∀ d ∈ n.reports, ∃ t ∈ body.dropLast, t.IsTerminator ∧ d.IsMistakeAt t.pos) :
    ¬ n.MistakeAtEnd (body ++ [last]) := by
  rintro ⟨t, ht, -, d, hd, problem, rfl⟩
  rw [List.dropLast_concat] at ht
  obtain ⟨init, rfl⟩ := List.getLast?_eq_some_iff.mp ht
  obtain ⟨u, hu, hterm, problem', heq⟩ := hreports _ hd
  rw [List.dropLast_concat] at hu
  have hbefore := (List.pairwise_append.mp horder).2.2 u hu t (List.mem_singleton.mpr rfl) hterm
  exact hbefore.ne (Diagnostic.terminator.inj heq).2.symm

/-- **Normalizing a scanned text fails exactly for a mistake at the end.** If a mistake is reported at
the last token before the end, the tokens are left; every other mistake is only reported, and the
tokens still end with the mark of the end. -/
theorem normalize_scan_mistakes {source : String} (hfault : (scan source).fault = none) :
    ((normalize (scan source).scanner.tokens.toList).MistakeAtEnd
        (scan source).scanner.tokens.toList →
      (normalize (scan source).scanner.tokens.toList).fault = some .outOfRange) ∧
    (¬ (normalize (scan source).scanner.tokens.toList).MistakeAtEnd
        (scan source).scanner.tokens.toList →
      (normalize (scan source).scanner.tokens.toList).fault = none ∧
        ∃ out, (normalize (scan source).scanner.tokens.toList).tokens =
          out ++ [Token.endOfFile]) := by
  have hend : Token.endOfFile.kind = .endOfFile := rfl
  have hstart : Scanner.InOrder { rest := source.toList } := by
    constructor <;> simp
  obtain ⟨e, horder, htokens⟩ := hstart.run hfault
  rw [show (scan source).scanner.tokens.toList = e.tokens.toList ++ [Token.endOfFile] from htokens]
  cases TerminatorWalk.run_ends hend e.tokens.toList {} horder.plain with
  | finished hrun hreports =>
    rename_i w'
    rw [normalize, hrun]
    have hnot : ¬ (w'.finish Token.endOfFile []).MistakeAtEnd
        (e.tokens.toList ++ [Token.endOfFile]) :=
      not_mistakeAtEnd horder.pairwise fun d hd => (hreports d hd).resolve_left List.not_mem_nil
    refine ⟨fun hmistake => absurd hmistake hnot, fun _ => ⟨rfl, ?_⟩⟩
    rcases TerminatorWalk.tokens_finish (w := w') hend
      with hout | ⟨-, u, us, p, -, -, hout⟩
    · exact ⟨_, hout⟩
    · exact ⟨w'.settled.reverse ++ [Token.semicolonAt p], by rw [hout]; simp⟩
  | lost hlast ht hreport hout =>
    refine ⟨fun _ => hout, fun hnot => absurd ⟨_, ?_, ht, hreport⟩ hnot⟩
    rw [List.dropLast_concat, hlast]

/-- A semicolon too many in the middle of a program is only reported. -/
theorem normalize_scan_doubled :
    (scan "a;\nb;;c").fault = none ∧
      (normalize (scan "a;\nb;;c").scanner.tokens.toList).reports =
        [.terminator .misplaced ⟨2, 2⟩] ∧
      (normalize (scan "a;\nb;;c").scanner.tokens.toList).fault = none ∧
      ∃ out, (normalize (scan "a;\nb;;c").scanner.tokens.toList).tokens =
        out ++ [Token.endOfFile] := by
  have hfault : (scan "a;\nb;;c").fault = none := by decide +kernel
  have hlast : (scan "a;\nb;;c").scanner.tokens.toList.dropLast.getLast?.map Token.kind =
      some .identifier := by decide +kernel
  refine ⟨hfault, by decide +kernel, (normalize_scan_mistakes hfault).2 ?_⟩
  rintro ⟨t, ht, hterm, -⟩
  rw [ht] at hlast
  have hkind : t.kind = .identifier := Option.some.inj hlast
  rcases hterm with hterm | hterm <;> exact absurd (hkind.symm.trans hterm) (by decide)

/-- A single semicolon is scanned cleanly, but its tokens are left when they are normalized. -/
theorem normalize_semicolon_outOfRange :
    (scan ";").fault = none ∧ (scan ";").scanner.reports = [] ∧
      (normalize (scan ";").scanner.tokens.toList).reports = [.terminator .misplaced ⟨1, 0⟩] ∧
      (normalize (scan ";").scanner.tokens.toList).fault = some .outOfRange := by
  decide +kernel

end Scriptlet
