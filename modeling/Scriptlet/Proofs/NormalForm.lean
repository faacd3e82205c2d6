import Scriptlet.Proofs.TerminatorSteps

/-! # What normalizing guarantees

If normalizing the terminators of a program reports nothing, its outcome is in normal form
(`IsNormalForm`): no line break is left, the words are those of the program, every semicolon ends a
statement outside of parentheses, and the semicolons are those of the program or all new.

The invariant of the walk, `TerminatorWalk.Kept`, relates the settled tokens to those that have been
passed. It is kept by every step in order; the end of the program adds at most one semicolon.
-/
namespace Scriptlet

/-- The words of a program: its tokens without the terminators. -/
def withoutTerminators (ts : List Token) : List Token :=
  ts.filter fun t => t.kind ≠ .newline ∧ t.kind ≠ .semicolon

/-- **A normal form of a program**, both given as tokens. -/
structure IsNormalForm (program out : List Token) : Prop where
  /-- No line break is left. -/
  no_newline : ∀ t ∈ out, t.kind ≠ .newline
  /-- The end is marked once, in the last place. -/
  ends : ∃ init last, out = init ++ [last] ∧ last.kind = .endOfFile ∧
    ∀ t ∈ init, t.kind ≠ .endOfFile
  /-- The words are those of the program, at their places and in their order. -/
  words : (out.filter fun t => t.kind ≠ .semicolon) = withoutTerminators program
  /-- Every semicolon stands behind a word that can end a statement. -/
  ended : ∀ before semi, before ++ [semi] <+: out → semi.kind = .semicolon →
    ∃ t ∈ before.getLast?, t.kind.endsStatement = true
  /-- Every semicolon stands outside of parentheses, except for one that was inserted before the
  end. -/
  outside : ∀ before semi after, out = before ++ semi :: after → semi.kind = .semicolon →
    depthOf before = 0 ∨ ((∀ t ∈ program, t.kind ≠ .semicolon) ∧ ∃ last, after = [last])
  /-- The semicolons are those of the program, which loses nothing but its line breaks, or the
  program has none and all have been inserted. -/
  one_style : (out = program.filter fun t => t.kind ≠ .newline) ∨
    ∀ t ∈ program, t.kind ≠ .semicolon

/-- Every semicolon stands behind a word that can end a statement, outside of parentheses. -/
def SemicolonsInPlace (out : List Token) : Prop :=
  ∀ before semi, before ++ [semi] <+: out → semi.kind = .semicolon →
    (∃ t ∈ before.getLast?, t.kind.endsStatement = true) ∧ depthOf before = 0

/-- One more token, which is in place if it is a semicolon. -/
theorem SemicolonsInPlace.concat {out : List Token} {t : Token} (h : SemicolonsInPlace out)
    (ht : t.kind = .semicolon →
      (∃ u ∈ out.getLast?, u.kind.endsStatement = true) ∧ depthOf out = 0) :
    SemicolonsInPlace (out ++ [t]) := by
  intro before semi hstart hsemi
  rcases List.prefix_concat_iff.mp hstart with heq | hstart
  · obtain ⟨rfl, rfl⟩ := List.append_inj' heq rfl |>.imp id List.singleton_inj.mp
    exact ht hsemi
  · exact h before semi hstart hsemi

namespace TerminatorWalk

variable {w w' : TerminatorWalk} {t last : Token} {done rest : List Token}

/-- The settled tokens are the normal form of those that have been passed, except that no end is
marked. -/
structure Kept (w : TerminatorWalk) (done : List Token) : Prop where
  plain : ∀ t ∈ w.settled, t.kind ≠ .newline ∧ t.kind ≠ .endOfFile
  words : (w.settled.reverse.filter fun t => t.kind ≠ .semicolon) = withoutTerminators done
  inPlace : SemicolonsInPlace w.settled.reverse
  depth : w.depth = depthOf w.settled.reverse
  /-- Before the first line break that ends a statement, nothing is inserted. -/
  program : w.style ≠ some .newlines →
    w.settled.reverse = done.filter fun t => t.kind ≠ .newline
  /-- Before the first semicolon that ends a statement, there is none. -/
  inserted : w.style ≠ some .semicolons → ∀ t ∈ done, t.kind ≠ .semicolon
  /-- Behind it, there is one. -/
  found : w.style = some .semicolons → ∃ t ∈ w.settled, t.kind = .semicolon

theorem kept_start : Kept {} [] where
  plain := by simp
  words := rfl
  inPlace := by
    intro before semi hstart
    simp at hstart
  depth := rfl
  program := fun _ => rfl
  inserted := by simp
  found := by simp

/-- A word is passed. -/
theorem Kept.word (h : Kept w done)
    (ht : t.kind ≠ .newline ∧ t.kind ≠ .semicolon ∧ t.kind ≠ .endOfFile) :
    Kept { w.settle t with depth := depthBehind w.depth t.kind } (done ++ [t]) where
  plain := by
    intro u hu
    rcases List.mem_cons.mp hu with rfl | hu
    · exact ⟨ht.1, ht.2.2⟩
    · exact h.plain u hu
  words := by
    have hwords := h.words
    simp only [withoutTerminators, settle, List.reverse_cons, List.filter_append] at hwords ⊢
    rw [hwords]
    simp [ht]
  inPlace := by
    simpa [settle] using h.inPlace.concat fun hsemi => absurd hsemi ht.2.1
  depth := by
    simp [settle, h.depth]
  program := by
    intro hstyle
    simp [settle, h.program hstyle, ht]
  inserted := by
    intro hstyle u hu
    rcases List.mem_append.mp hu with hu | hu
    · exact h.inserted hstyle u hu
    · rw [List.mem_singleton.mp hu]
      exact ht.2.1
  found := by
    intro hstyle
    obtain ⟨u, hu, hsemi⟩ := h.found hstyle
    exact ⟨u, List.mem_cons_of_mem _ hu, hsemi⟩

/-- A line break disappears. -/
theorem Kept.skip (h : Kept w done) (ht : t.kind = .newline) : Kept w (done ++ [t]) where
  plain := h.plain
  words := by
    rw [h.words]
    simp [withoutTerminators, ht]
  inPlace := h.inPlace
  depth := h.depth
  program := by
    intro hstyle
    rw [h.program hstyle]
    simp [ht]
  inserted := by
    intro hstyle u hu
    rcases List.mem_append.mp hu with hu | hu
    · exact h.inserted hstyle u hu
    · rw [List.mem_singleton.mp hu, ht]
      decide
  found := h.found

/-- A semicolon behind the end of a statement is in place, and all semicolons before it are. -/
theorem Kept.inPlace_concat {semi : Token} (h : Kept w done) (hdepth : w.depth = 0)
    (hlast : last.kind = .endOfFile) (hend : w.canEnd (rest ++ [last]) = true) :
    SemicolonsInPlace (w.settled.reverse ++ [semi]) := by
  refine h.inPlace.concat fun _ => ⟨?_, by rw [← h.depth, hdepth]⟩
  obtain ⟨u, us, hu, hends⟩ := exists_settled_of_canEnd hlast hend
  exact ⟨u, by simp [hu], hends⟩

/-- **Every step in order keeps the settled tokens normal.** -/
theorem Kept.step (h : Kept w done) (hlast : last.kind = .endOfFile)
    (hs : Step w t (rest ++ [last]) w') : Kept w' (done ++ [t]) := by
  cases hs with
  | word ht => exact h.word ht
  | skip ht _ => exact h.skip ht
  | lineEnd ht hdepth hend hnext hstyle =>
    -- the line break goes, and a semicolon is settled in its place
    have hskip := h.skip ht
    rw [← List.cons_append] at hend
    refine ⟨?_, ?_, ?_, ?_, ?_, ?_, ?_⟩
    · intro u hu
      rcases List.mem_cons.mp hu with rfl | hu
      · exact ⟨by simp [Token.semicolonAt], by simp [Token.semicolonAt]⟩
      · exact h.plain u hu
    · rw [← hskip.words]
      simp [settle, Token.semicolonAt]
    · simpa [settle] using h.inPlace_concat hdepth hlast hend
    · simp [settle, h.depth, Token.semicolonAt, depthBehind]
    · simp
    · exact fun _ => hskip.inserted hstyle
    · simp
  | semicolon ht hdepth hend hstyle =>
    rw [← List.cons_append] at hend
    refine ⟨?_, ?_, ?_, ?_, ?_, ?_, ?_⟩
    · intro u hu
      rcases List.mem_cons.mp hu with rfl | hu
      · simp [ht]
      · exact h.plain u hu
    · have hwords := h.words
      simp only [withoutTerminators, settle, List.reverse_cons, List.filter_append] at hwords ⊢
      rw [hwords]
      simp [ht]
    · simpa [settle] using h.inPlace_concat hdepth hlast hend
    · simp [settle, h.depth, ht, depthBehind]
    · intro _
      simp [settle, h.program hstyle, ht]
    · simp
    · exact fun _ => ⟨t, List.mem_cons_self, ht⟩

/-- **A walk that reports nothing** passes all words in order, up to the end. -/
theorem Kept.run {body : List Token} (h : Kept w done) (hlast : last.kind = .endOfFile)
    (hbody : ∀ t ∈ body, t.kind ≠ .endOfFile) (hreports : (w.run (body ++ [last])).reports = []) :
    ∃ w', Kept w' (done ++ body) ∧ w.run (body ++ [last]) = w'.finish last [] := by
  induction body generalizing w done with
  | nil => exact ⟨w, by rwa [List.append_nil], run_endOfFile hlast⟩
  | cons t body ih =>
    rw [List.cons_append] at hreports ⊢
    obtain ⟨w₁, hstep, hrun⟩ := exists_step_of_reports (hbody t List.mem_cons_self) hreports
    rw [hrun] at hreports ⊢
    obtain ⟨w', hkept, hfinish⟩ :=
      ih (h.step hlast hstep) (fun u hu => hbody u (List.mem_cons_of_mem _ hu)) hreports
    exact ⟨w', by simpa using hkept, hfinish⟩

/-- What the end of a program puts behind the settled tokens: nothing, or a semicolon that ends the
last statement. -/
def Closes (w : TerminatorWalk) (tail : List Token) : Prop :=
  w.Closed ∧ tail = [] ∨ w.style ≠ some .semicolons ∧ ∃ u us p, w.settled = u :: us ∧
    u.kind.endsStatement = true ∧ tail = [Token.semicolonAt p]

theorem Closes.kind_eq {tail : List Token} (h : w.Closes tail) :
    ∀ t ∈ tail, t.kind = .semicolon := by
  intro t ht
  rcases h with ⟨-, rfl⟩ | ⟨-, u, us, p, -, -, rfl⟩
  · cases ht
  · rw [List.mem_singleton.mp ht]
    rfl

theorem exists_closes (w : TerminatorWalk) (hlast : last.kind = .endOfFile) :
    ∃ tail, w.Closes tail ∧ (w.finish last []).tokens = w.settled.reverse ++ tail ++ [last] := by
  rcases closed_or_tokens_finish (w := w) hlast with
    ⟨hclosed, htokens⟩ | ⟨hstyle, u, us, p, hu, hends, htokens⟩
  · exact ⟨[], .inl ⟨hclosed, rfl⟩, by rw [htokens, List.append_nil]⟩
  · exact ⟨[Token.semicolonAt p], .inr ⟨hstyle, u, us, p, hu, hends, rfl⟩, by simp [htokens]⟩

/-- A semicolon before the end is settled and in place, or it closes the last statement. -/
theorem Kept.semicolon_cases {tail before : List Token} {semi : Token} (h : Kept w done)
    (htail : w.Closes tail) (hsemi : semi.kind = .semicolon)
    (hstart : before ++ [semi] <+: w.settled.reverse ++ tail) :
    (∃ t ∈ before.getLast?, t.kind.endsStatement = true) ∧
      (depthOf before = 0 ∨
        w.style ≠ some .semicolons ∧ before ++ [semi] = w.settled.reverse ++ tail) := by
  rcases htail with ⟨-, rfl⟩ | ⟨hstyle, u, us, p, hu, hends, rfl⟩
  · rw [List.append_nil] at hstart
    obtain ⟨hend, hdepth⟩ := h.inPlace before semi hstart hsemi
    exact ⟨hend, .inl hdepth⟩
  · rcases List.prefix_concat_iff.mp hstart with heq | hstart
    · obtain ⟨rfl, -⟩ := List.append_inj' heq rfl
      exact ⟨⟨u, by simp [hu], hends⟩, .inr ⟨hstyle, heq⟩⟩
    · obtain ⟨hend, hdepth⟩ := h.inPlace before semi hstart hsemi
      exact ⟨hend, .inl hdepth⟩

/-- The settled tokens of a whole program, closed and with the end behind them, are its normal
form. -/
theorem Kept.isNormalForm {tail : List Token} (h : Kept w done) (hlast : last.kind = .endOfFile)
    (htail : w.Closes tail) :
    IsNormalForm (done ++ [last]) (w.settled.reverse ++ tail ++ [last]) := by
  have hnew : w.style ≠ some .semicolons → ∀ t ∈ done ++ [last], t.kind ≠ .semicolon := by
    intro hstyle t ht
    rcases List.mem_append.mp ht with ht | ht
    · exact h.inserted hstyle t ht
    · simp [List.mem_singleton.mp ht, hlast]
  -- the end itself is no semicolon
  have hbefore : ∀ before semi, before ++ [semi] <+: w.settled.reverse ++ tail ++ [last] →
      semi.kind = .semicolon → before ++ [semi] <+: w.settled.reverse ++ tail := by
    intro before semi hstart hsemi
    rcases List.prefix_concat_iff.mp hstart with heq | hstart
    · obtain ⟨-, hsame⟩ := List.append_inj' heq rfl
      rw [List.singleton_inj.mp hsame, hlast] at hsemi
      cases hsemi
    · exact hstart
  constructor
  case no_newline =>
    intro t ht
    simp only [List.mem_append, List.mem_singleton, List.mem_reverse] at ht
    rcases ht with (ht | ht) | rfl
    · exact (h.plain t ht).1
    · simp [htail.kind_eq t ht]
    · simp [hlast]
  case ends =>
    refine ⟨w.settled.reverse ++ tail, last, rfl, hlast, ?_⟩
    intro t ht
    rcases List.mem_append.mp ht with ht | ht
    · exact (h.plain t (List.mem_reverse.mp ht)).2
    · simp [htail.kind_eq t ht]
  case words =>
    have hwords := h.words
    have hnone : (tail.filter fun t => t.kind ≠ .semicolon) = [] := by
      simpa using htail.kind_eq
    simp only [withoutTerminators, List.filter_append] at hwords hnone ⊢
    rw [hwords, hnone]
    simp [hlast]
  case ended =>
    intro before semi hstart hsemi
    exact (h.semicolon_cases htail hsemi (hbefore before semi hstart hsemi)).1
  case outside =>
    intro before semi after hout hsemi
    have hstart : before ++ [semi] <+: w.settled.reverse ++ tail ++ [last] :=
      ⟨after, by simp [hout]⟩
    rcases (h.semicolon_cases htail hsemi (hbefore before semi hstart hsemi)).2
      with hdepth | ⟨hstyle, heq⟩
    · exact .inl hdepth
    · refine .inr ⟨hnew hstyle, last, ?_⟩
      rw [← heq, List.append_assoc] at hout
      simpa using (List.append_cancel_left hout).symm
  case one_style =>
    by_cases hstyle : w.style = some .semicolons
    · refine .inl ?_
      have hempty : tail = [] := (htail.resolve_right fun hclose => hclose.1 hstyle).2
      rw [hempty, List.append_nil, h.program (by simp [hstyle])]
      simp [hlast]
    · exact .inr (hnew hstyle)

end TerminatorWalk

/-- **Normalizing without a report gives the normal form of a program.** The program ends with the
mark of its end, which stands nowhere else; then there is no fault either. -/
theorem normalize_isNormalForm {body : List Token} {last : Token} (hlast : last.kind = .endOfFile)
    (hbody : ∀ t ∈ body, t.kind ≠ .endOfFile)
    (hreports : (normalize (body ++ [last])).reports = []) :
    (normalize (body ++ [last])).fault = none ∧
      IsNormalForm (body ++ [last]) (normalize (body ++ [last])).tokens := by
  obtain ⟨w, hkept, hrun⟩ := TerminatorWalk.kept_start.run hlast hbody hreports
  obtain ⟨tail, htail, htokens⟩ := TerminatorWalk.exists_closes w hlast
  rw [normalize, hrun, htokens]
  exact ⟨rfl, hkept.isNormalForm hlast htail⟩

/-- The tokens of a call over two lines, with a line break behind it, and of a name. -/
def callAndName : List Token :=
  [⟨.identifier, .text "f", ⟨1, 1⟩⟩, ⟨.leftParen, .text "(", ⟨1, 1⟩⟩,
   ⟨.number, .int 1, ⟨1, 3⟩⟩, ⟨.newline, .text "\\n", ⟨1, 4⟩⟩,
   ⟨.rightParen, .text ")", ⟨2, 0⟩⟩, ⟨.newline, .text "\\n", ⟨2, 2⟩⟩,
   ⟨.identifier, .text "x", ⟨3, 1⟩⟩]

theorem callAndName_isNormalForm :
    (normalize (callAndName ++ [Token.endOfFile])).reports = [] ∧
      IsNormalForm (callAndName ++ [Token.endOfFile])
        (normalize (callAndName ++ [Token.endOfFile])).tokens :=
  ⟨by decide, (normalize_isNormalForm rfl (by decide) (by decide)).2⟩

end Scriptlet
