import Scriptlet.Proofs.Words
import Scriptlet.Token.Terminator

/-! # The two styles of terminators, line by line

A program that is written line by line can end its statements by the line breaks alone, or by a
semicolon before each of them. A line is either a whole statement or belongs to a block; this module
says what normalizing makes of such lines in both styles (`normalize_newlines`,
`normalize_semicolons`). The outcome is the same, except where a statement ends with a word that no
semicolon may stand behind: there the second style leaves a report.
-/
namespace Scriptlet

/-! ## Lines -/

/-- How deep in parentheses we are behind a word of kind `k`. -/
def depthBehind (d : Nat) : TokenKind → Nat
  | .leftParen => d + 1
  | .rightParen => d - 1
  | _ => d

/-- Words that stand together on a line: none of them is a terminator or the end, all parentheses
are closed, and a line does not begin with an opening brace. -/
structure IsLine (ks : List TokenKind) : Prop where
  ne_nil : ks ≠ []
  plain : ∀ k ∈ ks, k ≠ .newline ∧ k ≠ .semicolon ∧ k ≠ .endOfFile
  balanced : ∀ d, ks.foldl depthBehind d = d
  head : ks.head? ≠ some .leftBrace

/-- Whether a statement can end behind these words. -/
def canEndBehind (ws : List Word) : Bool :=
  ws.getLast?.any fun w => w.kind.endsStatement

/-- The words of a line with a terminator, if one can stand there. -/
def terminated (ws : List Word) : List Word :=
  if canEndBehind ws then ws ++ [Word.fixed .semicolon] else ws

/-- A line of a program. -/
structure Line where
  /-- Its words, without a terminator. -/
  words : List Word
  /-- Whether it is a whole statement. -/
  isStatement : Bool

namespace TerminatorWalk

variable {w : TerminatorWalk} {ts rest : List Token} {t : Token}

/-! ## Steps -/

/-- A word that is no terminator is settled as it is. -/
theorem run_settle (ht : t.kind ≠ .newline ∧ t.kind ≠ .semicolon ∧ t.kind ≠ .endOfFile) :
    w.run (t :: rest) = run { w.settle t with depth := depthBehind w.depth t.kind } rest := by
  rw [run.eq_def]
  simp only
  -- the words that end something are excluded; braces and parentheses change the depth
  split
  · rename_i hk
    exact absurd hk ht.2.2
  · rename_i hk
    exact absurd hk ht.1
  · rename_i hk
    rw [hk]
    rfl
  · rename_i hk
    rw [hk]
    rfl
  · rename_i hk
    exact absurd hk ht.2.1
  · rename_i h₁ h₂ h₃ h₄ h₅
    have hd : depthBehind w.depth t.kind = w.depth := by
      unfold depthBehind
      split
      · exact absurd ‹_› h₃
      · exact absurd ‹_› h₄
      · rfl
    rw [hd]
    rfl

theorem run_settle_all
    (h : ∀ t ∈ ts, t.kind ≠ .newline ∧ t.kind ≠ .semicolon ∧ t.kind ≠ .endOfFile) :
    w.run (ts ++ rest) =
      run { w with settled := ts.reverse ++ w.settled,
                   depth := (ts.map Token.kind).foldl depthBehind w.depth } rest := by
  induction ts generalizing w with
  | nil => rfl
  | cons t ts ih =>
    rw [List.cons_append, run_settle (h t List.mem_cons_self),
      ih fun u hu => h u (List.mem_cons_of_mem _ hu)]
    simp only [settle, List.reverse_cons, List.append_assoc, List.singleton_append, List.map_cons,
      List.foldl_cons]

/-- A line break behind a word that cannot end a statement disappears. -/
theorem run_newline_of_not_canEnd (ht : t.kind = .newline) (h : w.canEnd (t :: rest) = false) :
    w.run (t :: rest) = w.run rest := by
  rw [run.eq_def]
  simp only [ht, h, Bool.false_eq_true, and_false, if_false]

/-- A line break behind a word that can end a statement becomes a semicolon. -/
theorem run_newline_of_canEnd {next : Token} (ht : t.kind = .newline) (hd : w.depth = 0)
    (h : w.canEnd (t :: next :: rest) = true) (hnext : next.kind ≠ .leftBrace)
    (hstyle : w.style ≠ some .semicolons) :
    w.run (t :: next :: rest) =
      run { w.settle (Token.semicolonAt t.pos) with style := some .newlines } (next :: rest) := by
  conv => lhs; rw [run.eq_def]
  simp only [ht, hd, h, and_self, if_true, hnext, if_false, hstyle]

/-- A semicolon in a place where one can stand is kept. -/
theorem run_semicolon (ht : t.kind = .semicolon) (h : w.semicolonProblem? (t :: rest) = none) :
    w.run (t :: rest) = run { w.settle t with style := some .semicolons } rest := by
  rw [run.eq_def]
  simp only [ht, h]

/-- The end of the program. -/
theorem run_endOfFile (ht : t.kind = .endOfFile) : w.run (t :: rest) = w.finish t rest := by
  rw [run.eq_def]
  simp only [ht]

/-! ## Lines, one after the other -/

/-- No statement is open: behind the settled words none can end. -/
def Idle (w : TerminatorWalk) : Prop :=
  w.depth = 0 ∧ ∀ t ∈ w.settled.head?, t.kind.endsStatement = false

/-- The words of a line are settled. -/
theorem run_line {ws : List Word} (hws : ts.map Token.word = ws)
    (hline : IsLine (ws.map Word.kind)) :
    w.run (ts ++ rest) = run { w with settled := ts.reverse ++ w.settled } rest := by
  have hkinds : ts.map Token.kind = ws.map Word.kind := by
    rw [← hws, List.map_map]
    rfl
  rw [run_settle_all, hkinds, hline.balanced]
  intro t ht
  refine hline.plain t.kind ?_
  rw [← hkinds]
  exact List.mem_map_of_mem ht

/-- Whether a statement can end behind a line that is settled depends on its last word. -/
theorem canEnd_settled {ws : List Word} (hws : ts.map Token.word = ws) (hne : ts ≠ []) :
    canEnd { w with settled := ts.reverse ++ w.settled } rest = canEndBehind ws := by
  obtain ⟨init, last, rfl⟩ : ∃ init last, ts = init ++ [last] :=
    ⟨ts.dropLast, ts.getLast hne, (List.dropLast_concat_getLast hne).symm⟩
  rw [canEndBehind, ← hws, canEnd, previous?]
  simp only [List.reverse_append, List.reverse_cons, List.reverse_nil, List.nil_append,
    List.cons_append, Option.any_some, List.map_append, List.map_cons, List.map_nil,
    List.getLast?_append, List.getLast?_singleton, Option.some_or]
  rfl

theorem ne_nil_of_line {ws : List Word} (hws : ts.map Token.word = ws)
    (hline : IsLine (ws.map Word.kind)) : ts ≠ [] := by
  rintro rfl
  rw [← hws] at hline
  exact hline.ne_nil rfl

/-- What follows a line does not begin with an opening brace. -/
theorem exists_next {lines : List (List Word)} {last : Token} (f : List Word → List Word)
    (hlines : ∀ ws ∈ lines, IsLine (ws.map Word.kind))
    (hts : ts.map Token.word = lines.flatMap fun ws => ws ++ f ws)
    (hlast : last.kind = .endOfFile) :
    ∃ next more, ts ++ [last] = next :: more ∧ next.kind ≠ .leftBrace := by
  cases ts with
  | nil => exact ⟨last, [], rfl, by rw [hlast]; decide⟩
  | cons next more =>
    refine ⟨next, more ++ [last], rfl, ?_⟩
    intro hk
    cases lines with
    | nil => cases hts
    | cons ws lines =>
      have hline := hlines ws List.mem_cons_self
      cases ws with
      | nil => exact hline.ne_nil rfl
      | cons v vs =>
        have hv : next.word = v := (List.cons.inj hts).1
        exact hline.head (by rw [List.map_cons, List.head?_cons, ← hv]; exact congrArg some hk)

/-- At the end, nothing is added if no statement is open. -/
theorem finish_of_idle {last : Token} (hw : w.Idle) (hlast : last.kind = .endOfFile) :
    w.finish last [] = ⟨w.settled.reverse ++ [last], w.settled.length, w.reports, none⟩ := by
  -- with nothing settled, the token before the end wraps round to the end itself
  have hopen : ∀ t ∈ w.previous? [last], t.kind.endsStatement = false := by
    intro t ht
    rw [previous?] at ht
    cases hs : w.settled with
    | nil =>
      rw [hs] at ht
      cases ht
      show last.kind.endsStatement = false
      rw [hlast]
      rfl
    | cons u us =>
      rw [hs] at ht
      cases ht
      exact hw.2 _ (by rw [hs]; rfl)
  rw [finish]
  cases hp : w.previous? [last] with
  | none => rfl
  | some t =>
    have := hopen t hp
    simp only [this, Bool.false_eq_true, and_false, if_false]

/-- The given words have been settled, and no statement is open. -/
structure Settled (w w' : TerminatorWalk) (ws : List Word) : Prop where
  idle : w'.Idle
  reports : w'.reports = w.reports
  settled : ∃ seg : List Token, w'.settled = seg.reverse ++ w.settled ∧ seg.map Token.word = ws

/-- What a run adds to the words that have been settled, up to the end, is added to the words
before them too. -/
theorem Settled.exists_run {w' : TerminatorWalk} {ws vs : List Word} {last : Token}
    (h : Settled w w' ws)
    (hrun : ∃ out i, out.map Token.word = vs ∧
      w'.run ts = ⟨w'.settled.reverse ++ (out ++ [last]), i, w'.reports, none⟩) :
    ∃ out i, out.map Token.word = ws ++ vs ∧
      w'.run ts = ⟨w.settled.reverse ++ (out ++ [last]), i, w.reports, none⟩ := by
  obtain ⟨out, i, hout, hrun⟩ := hrun
  obtain ⟨seg, hseg, hws⟩ := h.settled
  refine ⟨seg ++ out, i, by rw [List.map_append, hws, hout], ?_⟩
  rw [hrun, hseg, h.reports]
  simp only [List.reverse_append, List.reverse_reverse, List.append_assoc]

/-- A line is settled as it is if no statement can end behind it. -/
theorem settled_of_not_canEnd {ws : List Word} (hw : w.Idle) (hws : ts.map Token.word = ws)
    (hne : ts ≠ []) (h : canEndBehind ws = false) :
    Settled w { w with settled := ts.reverse ++ w.settled } (terminated ws) := by
  refine ⟨⟨hw.1, ?_⟩, rfl, ts, rfl, ?_⟩
  · intro t ht
    have hcan : canEnd { w with settled := ts.reverse ++ w.settled } [] = false := by
      rw [canEnd_settled hws hne, h]
    rw [canEnd, previous?] at hcan
    cases hs : ts.reverse ++ w.settled with
    | nil =>
      rw [hs] at ht
      cases ht
    | cons u us =>
      rw [hs] at ht hcan
      cases ht
      exact hcan
  · rw [terminated, h, if_neg Bool.false_ne_true, hws]

/-- A line is settled with a semicolon if a statement can end behind it. -/
theorem settled_of_canEnd {ws : List Word} {semi : Token} (style : Option TerminatorStyle)
    (hw : w.Idle) (hws : ts.map Token.word = ws) (hsemi : semi.word = Word.fixed .semicolon)
    (h : canEndBehind ws = true) :
    Settled w { w with settled := semi :: (ts.reverse ++ w.settled), style } (terminated ws) := by
  refine ⟨⟨hw.1, ?_⟩, rfl, ts ++ [semi], by simp, ?_⟩
  · rintro t ⟨⟩
    have hk : semi.kind = .semicolon := congrArg Word.kind hsemi
    rw [hk]
    rfl
  · rw [terminated, if_pos h, List.map_append, hws, List.map_singleton, hsemi]

/-! ## Line breaks alone -/

/-- A line that is ended by its line break. -/
theorem exists_settled_newline {ws : List Word} {nl next : Token} (rest : List Token) (hw : w.Idle)
    (hstyle : w.style ≠ some .semicolons) (hws : ts.map Token.word = ws)
    (hline : IsLine (ws.map Word.kind)) (hnl : nl.kind = .newline)
    (hnext : next.kind ≠ .leftBrace) :
    ∃ w' : TerminatorWalk, w.run (ts ++ nl :: next :: rest) = w'.run (next :: rest) ∧
      Settled w w' (terminated ws) ∧ w'.style ≠ some .semicolons := by
  have hne := ne_nil_of_line hws hline
  rw [run_line hws hline]
  cases hend : canEndBehind ws with
  | true =>
    refine ⟨_, run_newline_of_canEnd hnl hw.1 ?_ hnext hstyle,
      settled_of_canEnd (some .newlines) hw hws rfl hend, by simp⟩
    rw [canEnd_settled hws hne, hend]
  | false =>
    refine ⟨_, run_newline_of_not_canEnd hnl ?_, settled_of_not_canEnd hw hws hne hend, hstyle⟩
    rw [canEnd_settled hws hne, hend]

/-- Lines that are ended by line breaks alone. -/
theorem run_newlines {last : Token} (hlast : last.kind = .endOfFile) {lines : List (List Word)}
    (hlines : ∀ ws ∈ lines, IsLine (ws.map Word.kind)) :
    ∀ {w : TerminatorWalk} {ts : List Token}, w.Idle → w.style ≠ some .semicolons →
      ts.map Token.word = lines.flatMap (· ++ [Word.newline]) →
      ∃ out i, out.map Token.word = lines.flatMap terminated ∧
        w.run (ts ++ [last]) = ⟨w.settled.reverse ++ (out ++ [last]), i, w.reports, none⟩ := by
  induction lines with
  | nil =>
    intro w ts hw _ hts
    obtain rfl := List.map_eq_nil_iff.mp hts
    exact ⟨[], _, rfl, (run_endOfFile hlast).trans (finish_of_idle hw hlast)⟩
  | cons ws lines ih =>
    intro w ts hw hstyle hts
    have hlines' := fun vs hvs => hlines vs (List.mem_cons_of_mem _ hvs)
    rw [List.flatMap_cons, List.append_assoc] at hts
    obtain ⟨line, ts, rfl, hws, hts⟩ := List.map_eq_append_iff.mp hts
    obtain ⟨nl, ts, rfl, hnl, hts⟩ := List.map_eq_cons_iff.mp hts
    -- a line break is no terminator before an opening brace, so the next token is looked at
    obtain ⟨next, more, hnext, hbrace⟩ := exists_next _ hlines' hts hlast
    obtain ⟨w', hrun, hsettled, hstyle'⟩ := exists_settled_newline more hw hstyle hws
      (hlines ws List.mem_cons_self) (congrArg Word.kind hnl) hbrace
    rw [List.append_assoc, List.cons_append, hnext, hrun, ← hnext, List.flatMap_cons]
    exact hsettled.exists_run (ih hlines' hsettled.idle hstyle' hts)

/-! ## Semicolons -/

/-- A line that belongs to a block: its line break disappears. -/
theorem exists_settled_brace {ws : List Word} {nl : Token} (rest : List Token) (hw : w.Idle)
    (hws : ts.map Token.word = ws) (hline : IsLine (ws.map Word.kind)) (hnl : nl.kind = .newline)
    (hend : canEndBehind ws = false) :
    ∃ w' : TerminatorWalk, w.run (ts ++ nl :: rest) = w'.run rest ∧
      Settled w w' (terminated ws) ∧ w'.style = w.style := by
  have hne := ne_nil_of_line hws hline
  rw [run_line hws hline]
  refine ⟨_, run_newline_of_not_canEnd hnl ?_, settled_of_not_canEnd hw hws hne hend, rfl⟩
  rw [canEnd_settled hws hne, hend]

/-- What is wrong with a semicolon behind a line. -/
theorem semicolonProblem?_settled {ws : List Word} (hw : w.Idle) (hstyle : w.style ≠ some .newlines)
    (hws : ts.map Token.word = ws) (hne : ts ≠ []) :
    semicolonProblem? { w with settled := ts.reverse ++ w.settled } rest =
      if canEndBehind ws then none else some .misplaced := by
  rw [semicolonProblem?, if_neg (by rw [hw.1]; decide), if_neg hstyle, canEnd_settled hws hne]
  cases canEndBehind ws <;> rfl

/-- A statement that is ended by a semicolon and a line break. -/
theorem exists_settled_semicolon {ws : List Word} {semi nl : Token} (rest : List Token)
    (hw : w.Idle) (hstyle : w.style ≠ some .newlines) (hws : ts.map Token.word = ws)
    (hline : IsLine (ws.map Word.kind)) (hsemi : semi.word = Word.fixed .semicolon)
    (hnl : nl.kind = .newline) (hend : canEndBehind ws = true) :
    ∃ w' : TerminatorWalk, w.run (ts ++ semi :: nl :: rest) = w'.run rest ∧
      Settled w w' (terminated ws) ∧ w'.style ≠ some .newlines := by
  have hne := ne_nil_of_line hws hline
  have hk : semi.kind = .semicolon := congrArg Word.kind hsemi
  have hproblem : semicolonProblem? { w with settled := ts.reverse ++ w.settled }
      (semi :: nl :: rest) = none := by
    rw [semicolonProblem?_settled hw hstyle hws hne, if_pos hend]
  rw [run_line hws hline, run_semicolon hk hproblem]
  refine ⟨_, run_newline_of_not_canEnd hnl ?_,
    settled_of_canEnd (some .semicolons) hw hws hsemi hend, by simp⟩
  rw [canEnd, previous?, settle, Option.any_some, hk]
  rfl

/-- What has been reported stays reported. -/
theorem reports_subset (w : TerminatorWalk) (ts : List Token) : w.reports ⊆ (w.run ts).reports := by
  fun_induction run w ts with
  | case1 | case2 | case3 => exact List.Subset.refl _
  | case4 _ _ _ _ _ _ _ ih | case6 _ _ _ _ _ _ _ _ ih | case7 _ _ _ _ _ ih | case8 _ _ _ _ ih
    | case9 _ _ _ _ ih | case10 _ _ _ _ _ ih | case13 _ _ _ _ _ _ _ _ ih => exact ih
  | case5 _ _ _ _ _ _ _ _ ih => exact List.Subset.trans (List.subset_append_left _ _) ih
  | case11 => exact List.subset_append_left _ _
  | case12 =>
    rename_i ih
    exact List.Subset.trans (List.subset_append_left _ _) ih

/-- A semicolon behind a line that no statement can end behind is reported. -/
theorem reports_of_misplaced {ws : List Word} {semi : Token} (hw : w.Idle)
    (hstyle : w.style ≠ some .newlines) (hws : ts.map Token.word = ws)
    (hline : IsLine (ws.map Word.kind)) (hsemi : semi.kind = .semicolon)
    (hend : canEndBehind ws = false) :
    .terminator .misplaced semi.pos ∈ (w.run (ts ++ semi :: rest)).reports := by
  have hproblem : semicolonProblem? { w with settled := ts.reverse ++ w.settled } (semi :: rest) =
      some .misplaced := by
    rw [semicolonProblem?_settled hw hstyle hws (ne_nil_of_line hws hline), hend]
    rfl
  rw [run_line hws hline, run.eq_def]
  simp only [hsemi, hproblem]
  cases rest with
  | nil => exact List.mem_append_right _ List.mem_cons_self
  | cons next rest =>
    exact reports_subset _ _ (List.mem_append_right _ List.mem_cons_self)

end TerminatorWalk

/-! ## Both styles -/

/-- The words of a line in the style of line breaks, or with a semicolon behind each statement. -/
def Line.written (style : TerminatorStyle) (l : Line) : List Word :=
  if style = .semicolons ∧ l.isStatement then l.words ++ [Word.fixed .semicolon] else l.words

namespace TerminatorWalk

variable {w : TerminatorWalk} {ts : List Token}

/-- A line whose statement, if it is one, is ended by a semicolon. -/
theorem exists_settled_written {l : Line} (rest : List Token) (hw : w.Idle)
    (hstyle : w.style ≠ some .newlines) (hline : IsLine (l.words.map Word.kind))
    (hend : l.isStatement = canEndBehind l.words)
    (hts : ts.map Token.word = l.written .semicolons ++ [Word.newline]) :
    ∃ w' : TerminatorWalk, w.run (ts ++ rest) = w'.run rest ∧
      Settled w w' (terminated l.words) ∧ w'.style ≠ some .newlines := by
  cases hs : l.isStatement with
  | true =>
    rw [Line.written, if_pos ⟨rfl, hs⟩, List.append_assoc] at hts
    obtain ⟨line, ts, rfl, hws, hts⟩ := List.map_eq_append_iff.mp hts
    obtain ⟨semi, ts, rfl, hsemi, hts⟩ := List.map_eq_cons_iff.mp hts
    obtain ⟨nl, rfl, hnl⟩ := List.map_eq_singleton_iff.mp hts
    rw [List.append_assoc]
    exact exists_settled_semicolon rest hw hstyle hws hline hsemi (congrArg Word.kind hnl)
      (hend ▸ hs)
  | false =>
    rw [Line.written, if_neg (by rw [hs]; simp)] at hts
    obtain ⟨line, ts, rfl, hws, hts⟩ := List.map_eq_append_iff.mp hts
    obtain ⟨nl, rfl, hnl⟩ := List.map_eq_singleton_iff.mp hts
    rw [List.append_assoc]
    obtain ⟨w', hrun, hsettled, hkept⟩ :=
      exists_settled_brace rest hw hws hline (congrArg Word.kind hnl) (hend ▸ hs)
    exact ⟨w', hrun, hsettled, hkept ▸ hstyle⟩

/-- Lines whose statements are ended by semicolons. -/
theorem run_semicolons {last : Token} (hlast : last.kind = .endOfFile) {lines : List Line}
    (hlines : ∀ l ∈ lines, IsLine (l.words.map Word.kind))
    (hends : ∀ l ∈ lines, l.isStatement = canEndBehind l.words) :
    ∀ {w : TerminatorWalk} {ts : List Token}, w.Idle → w.style ≠ some .newlines →
      ts.map Token.word = (lines.map (Line.written .semicolons)).flatMap (· ++ [Word.newline]) →
      ∃ out i, out.map Token.word = (lines.map Line.words).flatMap terminated ∧
        w.run (ts ++ [last]) = ⟨w.settled.reverse ++ (out ++ [last]), i, w.reports, none⟩ := by
  induction lines with
  | nil =>
    intro w ts hw _ hts
    obtain rfl := List.map_eq_nil_iff.mp hts
    exact ⟨[], _, rfl, (run_endOfFile hlast).trans (finish_of_idle hw hlast)⟩
  | cons l lines ih =>
    intro w ts hw hstyle hts
    rw [List.map_cons, List.flatMap_cons] at hts
    obtain ⟨line, ts, rfl, hline, hts⟩ := List.map_eq_append_iff.mp hts
    obtain ⟨w', hrun, hsettled, hstyle'⟩ := exists_settled_written (ts ++ [last]) hw hstyle
      (hlines l List.mem_cons_self) (hends l List.mem_cons_self) hline
    rw [List.append_assoc, hrun, List.map_cons, List.flatMap_cons]
    exact hsettled.exists_run (ih (fun l' hl' => hlines l' (List.mem_cons_of_mem _ hl'))
      (fun l' hl' => hends l' (List.mem_cons_of_mem _ hl')) hsettled.idle hstyle' hts)

/-- If a statement ends with a word that no semicolon may stand behind, there is a report. -/
theorem reports_of_semicolons {last : Token} {lines : List Line}
    (hlines : ∀ l ∈ lines, IsLine (l.words.map Word.kind))
    (hends : ∀ l ∈ lines, canEndBehind l.words = true → l.isStatement = true)
    (hbad : ∃ l ∈ lines, l.isStatement ≠ canEndBehind l.words) :
    ∀ {w : TerminatorWalk} {ts : List Token}, w.Idle → w.style ≠ some .newlines →
      ts.map Token.word = (lines.map (Line.written .semicolons)).flatMap (· ++ [Word.newline]) →
      (w.run (ts ++ [last])).reports ≠ [] := by
  induction lines with
  | nil =>
    obtain ⟨l, hl, -⟩ := hbad
    cases hl
  | cons l lines ih =>
    intro w ts hw hstyle hts
    have hline := hlines l List.mem_cons_self
    rw [List.map_cons, List.flatMap_cons] at hts
    obtain ⟨line, ts, rfl, hwords, hts⟩ := List.map_eq_append_iff.mp hts
    by_cases hend : l.isStatement = canEndBehind l.words
    · obtain ⟨w', hrun, hsettled, hstyle'⟩ :=
        exists_settled_written (ts ++ [last]) hw hstyle hline hend hwords
      rw [List.append_assoc, hrun]
      refine ih (fun l' hl' => hlines l' (List.mem_cons_of_mem _ hl'))
        (fun l' hl' => hends l' (List.mem_cons_of_mem _ hl')) ?_ hsettled.idle hstyle' hts
      obtain ⟨l', hl', hne⟩ := hbad
      rcases List.mem_cons.mp hl' with rfl | hl'
      · exact absurd hend hne
      · exact ⟨l', hl', hne⟩
    · -- the first such statement: its semicolon is reported
      obtain ⟨hs, hcan⟩ : l.isStatement = true ∧ canEndBehind l.words = false := by
        have himp := hends l List.mem_cons_self
        revert himp hend
        cases l.isStatement <;> cases canEndBehind l.words <;> decide
      rw [Line.written, if_pos ⟨rfl, hs⟩, List.append_assoc] at hwords
      obtain ⟨line, more, rfl, hws, hmore⟩ := List.map_eq_append_iff.mp hwords
      obtain ⟨semi, more, rfl, hsemi, -⟩ := List.map_eq_cons_iff.mp hmore
      rw [List.append_assoc, List.append_assoc, List.cons_append]
      exact List.ne_nil_of_mem
        (reports_of_misplaced hw hstyle hws hline (congrArg Word.kind hsemi) hcan)

end TerminatorWalk

/-! ## Whole programs -/

variable {lines : List Line} {ts : List Token} {last : Token}

/-- **Statements that are ended by line breaks are normalized**: every line break disappears, and a
semicolon takes its place where a statement can end. -/
theorem normalize_newlines (hlast : last.kind = .endOfFile)
    (hlines : ∀ l ∈ lines, IsLine (l.words.map Word.kind))
    (hts : ts.map Token.word = (lines.map (Line.written .newlines)).flatMap (· ++ [Word.newline])) :
    ∃ out i, out.map Token.word = (lines.map Line.words).flatMap terminated ∧
      normalize (ts ++ [last]) = ⟨out ++ [last], i, [], none⟩ := by
  have hwritten : lines.map (Line.written .newlines) = lines.map Line.words := by
    refine List.map_congr_left fun l _ => ?_
    rw [Line.written, if_neg (by simp)]
  rw [hwritten] at hts
  refine TerminatorWalk.run_newlines hlast ?_ ⟨rfl, by rintro t ⟨⟩⟩ (by simp) hts
  intro ws hws
  obtain ⟨l, hl, rfl⟩ := List.mem_map.mp hws
  exact hlines l hl

/-- **Statements that are ended by semicolons are normalized** to the same words, if each of them
can be ended. -/
theorem normalize_semicolons (hlast : last.kind = .endOfFile)
    (hlines : ∀ l ∈ lines, IsLine (l.words.map Word.kind))
    (hends : ∀ l ∈ lines, l.isStatement = canEndBehind l.words)
    (hts : ts.map Token.word =
      (lines.map (Line.written .semicolons)).flatMap (· ++ [Word.newline])) :
    ∃ out i, out.map Token.word = (lines.map Line.words).flatMap terminated ∧
      normalize (ts ++ [last]) = ⟨out ++ [last], i, [], none⟩ :=
  TerminatorWalk.run_semicolons hlast hlines hends ⟨rfl, by rintro t ⟨⟩⟩ (by simp) hts

/-- A statement that cannot be ended by a semicolon is reported. -/
theorem normalize_semicolons_reports
    (hlines : ∀ l ∈ lines, IsLine (l.words.map Word.kind))
    (hends : ∀ l ∈ lines, canEndBehind l.words = true → l.isStatement = true)
    (hbad : ∃ l ∈ lines, l.isStatement ≠ canEndBehind l.words)
    (hts : ts.map Token.word =
      (lines.map (Line.written .semicolons)).flatMap (· ++ [Word.newline])) :
    (normalize (ts ++ [last])).reports ≠ [] :=
  TerminatorWalk.reports_of_semicolons hlines hends hbad ⟨rfl, by rintro t ⟨⟩⟩ (by simp) hts

end Scriptlet
