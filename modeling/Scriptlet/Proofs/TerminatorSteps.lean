import Scriptlet.Proofs.TerminatorStyles

/-! # The steps of the search for terminators

A walk over the tokens of a program settles them one after the other. What a single token can bring
is said once, in `TerminatorWalk.run_cases`: it is passed in order (`TerminatorWalk.Step`), or it is a
terminator in the wrong place, which is reported and settled together with the token behind it. All
statements about whole walks are inductions over these two cases.
-/
namespace Scriptlet

/-- How deep in parentheses we are behind the given tokens. -/
def depthOf (ts : List Token) : Nat :=
  (ts.map Token.kind).foldl depthBehind 0

@[simp] theorem depthOf_concat (ts : List Token) (t : Token) :
    depthOf (ts ++ [t]) = depthBehind (depthOf ts) t.kind := by
  simp [depthOf]

/-- Line breaks and semicolons. -/
def Token.IsTerminator (t : Token) : Prop :=
  t.kind = .newline ∨ t.kind = .semicolon

namespace TerminatorWalk

variable {w w' : TerminatorWalk} {t : Token} {rest : List Token}

/-- **A token is passed in order**, with `rest` behind it. -/
inductive Step (w : TerminatorWalk) (t : Token) (rest : List Token) : TerminatorWalk → Prop
  /-- A word that is no terminator is settled as it is. -/
  | word (ht : t.kind ≠ .newline ∧ t.kind ≠ .semicolon ∧ t.kind ≠ .endOfFile) :
      Step w t rest { w.settle t with depth := depthBehind w.depth t.kind }
  /-- A line break that ends no statement disappears. -/
  | skip (ht : t.kind = .newline)
      (hopen : w.depth = 0 → w.canEnd (t :: rest) = true →
        rest.head?.map Token.kind = some .leftBrace) : Step w t rest w
  /-- A line break that ends a statement becomes a semicolon. -/
  | lineEnd (ht : t.kind = .newline) (hdepth : w.depth = 0) (hend : w.canEnd (t :: rest) = true)
      (hnext : rest.head?.map Token.kind ≠ some .leftBrace) (hstyle : w.style ≠ some .semicolons) :
      Step w t rest { w.settle (Token.semicolonAt t.pos) with style := some .newlines }
  /-- A semicolon that ends a statement is kept. -/
  | semicolon (ht : t.kind = .semicolon) (hdepth : w.depth = 0)
      (hend : w.canEnd (t :: rest) = true) (hstyle : w.style ≠ some .newlines) :
      Step w t rest { w.settle t with style := some .semicolons }

theorem semicolonProblem?_eq_none :
    w.semicolonProblem? rest = none ↔
      w.depth = 0 ∧ w.style ≠ some .newlines ∧ w.canEnd rest = true := by
  unfold semicolonProblem?
  by_cases hdepth : 0 < w.depth
  · simp [hdepth, Nat.ne_of_gt hdepth]
  · by_cases hstyle : w.style = some .newlines
    · simp [hdepth, hstyle]
    · have hzero : w.depth = 0 := by omega
      cases hend : w.canEnd rest <;> simp [hzero, hstyle]

/-- A line break, with the token behind it. -/
theorem run_newline_cases (w : TerminatorWalk) (next : Token) (rest : List Token)
    (ht : t.kind = .newline) :
    (∃ w', Step w t (next :: rest) w' ∧ w.run (t :: next :: rest) = w'.run (next :: rest)) ∨
      w.run (t :: next :: rest) =
        (((w.report .mixedStyles t.pos).settle t).settle (Token.semicolonAt next.pos)).run rest := by
  by_cases hend : w.depth = 0 ∧ w.canEnd (t :: next :: rest) = true
  · by_cases hnext : next.kind = .leftBrace
    · refine .inl ⟨w, .skip ht fun _ _ => by simp [hnext], ?_⟩
      conv => lhs; rw [run.eq_def]
      simp only [ht, hend, and_self, if_true, hnext]
    · by_cases hstyle : w.style = some .semicolons
      · refine .inr ?_
        conv => lhs; rw [run.eq_def]
        simp only [ht, hend, and_self, if_true, hnext, if_false, hstyle]
      · exact .inl ⟨_, .lineEnd ht hend.1 hend.2 (by simpa using hnext) hstyle,
          run_newline_of_canEnd ht hend.1 hend.2 hnext hstyle⟩
  · refine .inl ⟨w, .skip ht fun hdepth hcan => absurd ⟨hdepth, hcan⟩ hend, ?_⟩
    conv => lhs; rw [run.eq_def]
    simp only [ht, hend, if_false]

/-- A semicolon, with the token behind it. -/
theorem run_semicolon_cases (w : TerminatorWalk) (next : Token) (rest : List Token)
    (ht : t.kind = .semicolon) :
    (∃ w', Step w t (next :: rest) w' ∧ w.run (t :: next :: rest) = w'.run (next :: rest)) ∨
      ∃ problem, w.run (t :: next :: rest) =
        (((w.report problem t.pos).settle t).settle next).run rest := by
  cases hproblem : w.semicolonProblem? (t :: next :: rest) with
  | none =>
    obtain ⟨hdepth, hstyle, hend⟩ := semicolonProblem?_eq_none.mp hproblem
    exact .inl ⟨_, .semicolon ht hdepth hend hstyle, run_semicolon ht hproblem⟩
  | some problem =>
    refine .inr ⟨problem, ?_⟩
    rw [run.eq_def]
    simp only [ht, hproblem]

/-- **What a token can bring**: it is passed in order, or it is a terminator that is reported, and
then the token behind it, or a semicolon in its place, is settled without being looked at. -/
theorem run_cases (w : TerminatorWalk) (next : Token) (rest : List Token)
    (ht : t.kind ≠ .endOfFile) :
    (∃ w', Step w t (next :: rest) w' ∧ w.run (t :: next :: rest) = w'.run (next :: rest)) ∨
      (t.IsTerminator ∧ ∃ problem other,
        w.run (t :: next :: rest) =
          (((w.report problem t.pos).settle t).settle other).run rest) := by
  by_cases hnewline : t.kind = .newline
  · rcases run_newline_cases w next rest hnewline with hstep | hrun
    · exact .inl hstep
    · exact .inr ⟨.inl hnewline, _, _, hrun⟩
  by_cases hsemicolon : t.kind = .semicolon
  · rcases run_semicolon_cases w next rest hsemicolon with hstep | ⟨problem, hrun⟩
    · exact .inl hstep
    · exact .inr ⟨.inr hsemicolon, problem, next, hrun⟩
  · have hword : t.kind ≠ .newline ∧ t.kind ≠ .semicolon ∧ t.kind ≠ .endOfFile :=
      ⟨hnewline, hsemicolon, ht⟩
    exact .inl ⟨_, .word hword, run_settle hword⟩

theorem Step.reports (h : Step w t rest w') : w'.reports = w.reports := by
  cases h <;> rfl

/-- **A walk that reports nothing** passes every token in order. -/
theorem exists_step_of_reports {last : Token} (ht : t.kind ≠ .endOfFile)
    (hreports : (w.run (t :: (rest ++ [last]))).reports = []) :
    ∃ w', Step w t (rest ++ [last]) w' ∧
      w.run (t :: (rest ++ [last])) = w'.run (rest ++ [last]) := by
  obtain ⟨next, more, hnext⟩ : ∃ next more, rest ++ [last] = next :: more :=
    List.exists_cons_of_ne_nil (by simp)
  rw [hnext] at hreports ⊢
  rcases run_cases w next more ht with hstep | ⟨-, problem, other, hrun⟩
  · exact hstep
  · -- what is reported stays reported
    rw [hrun] at hreports
    have hmem := reports_subset (((w.report problem t.pos).settle t).settle other) more
      (List.mem_append_right w.reports List.mem_cons_self)
    rw [hreports] at hmem
    cases hmem

/-- The token that a statement ends with has been settled: before the first token of a program
stands its end. -/
theorem exists_settled_of_canEnd {last : Token} (hlast : last.kind = .endOfFile)
    (h : w.canEnd (rest ++ [last]) = true) :
    ∃ u us, w.settled = u :: us ∧ u.kind.endsStatement = true := by
  unfold canEnd previous? at h
  cases hs : w.settled with
  | nil =>
    have hend : last.kind.endsStatement = true := by simpa [hs] using h
    rw [hlast] at hend
    cases hend
  | cons u us => exact ⟨u, us, rfl, by simpa [hs] using h⟩

/-- No statement is open at the end of a program, or semicolons are used: nothing is added there. -/
def Closed (w : TerminatorWalk) : Prop :=
  w.style = some .semicolons ∨ ∀ u ∈ w.settled.head?, u.kind.endsStatement = false

/-- At the end of a program in which no statement is open, nothing happens. -/
theorem Closed.finish_eq {last : Token} (h : w.Closed) (hlast : last.kind = .endOfFile) :
    w.finish last [] = ⟨w.settled.reverse ++ [last], w.settled.length, w.reports, none⟩ := by
  unfold finish previous?
  cases hs : w.settled with
  | nil =>
    have hend : last.kind.endsStatement = false := by
      rw [hlast]
      rfl
    simp [hend]
  | cons u us =>
    have hclosed : ¬(w.style ≠ some .semicolons ∧ u.kind.endsStatement = true) := by
      rintro ⟨hstyle, hends⟩
      have hnot := h.resolve_left hstyle u (by simp [hs])
      rw [hends] at hnot
      cases hnot
    simp only [hclosed, if_false]

/-- **The end of a program**: a last statement that is still open gets a semicolon, unless semicolons
are used. -/
theorem closed_or_tokens_finish {last : Token} (hlast : last.kind = .endOfFile) :
    (w.Closed ∧ (w.finish last []).tokens = w.settled.reverse ++ [last]) ∨
      (w.style ≠ some .semicolons ∧ ∃ u us p, w.settled = u :: us ∧ u.kind.endsStatement = true ∧
        (w.finish last []).tokens = w.settled.reverse ++ [Token.semicolonAt p, last]) := by
  by_cases hclosed : w.Closed
  · exact .inl ⟨hclosed, by rw [hclosed.finish_eq hlast]⟩
  · unfold Closed at hclosed
    obtain ⟨hstyle, u, hu, hends⟩ :
        w.style ≠ some .semicolons ∧ ∃ u ∈ w.settled.head?, u.kind.endsStatement = true := by
      simpa using hclosed
    obtain ⟨us, hs⟩ : ∃ us, w.settled = u :: us := List.head?_eq_some_iff.mp hu
    refine .inr ⟨hstyle, u, us, ⟨u.pos.line, u.pos.column + 1⟩, hs, hends, ?_⟩
    simp [finish, previous?, hs, hstyle, hends]

theorem tokens_finish {last : Token} (hlast : last.kind = .endOfFile) :
    (w.finish last []).tokens = w.settled.reverse ++ [last] ∨
      (w.style ≠ some .semicolons ∧ ∃ u us p, w.settled = u :: us ∧ u.kind.endsStatement = true ∧
        (w.finish last []).tokens = w.settled.reverse ++ [Token.semicolonAt p, last]) :=
  (closed_or_tokens_finish hlast).imp And.right id

end TerminatorWalk

end Scriptlet
