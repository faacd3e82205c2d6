import Scriptlet.Proofs.NormalForm

/-! # Blank lines

Behind a line break, further line breaks are put in, as blank lines and lines with nothing but a
comment bring them. Normalizing gives the same outcome then, with one exception: a line break between
the last word of a header and the opening brace of its block is not taken for the end of a statement,
but it is if the brace does not follow at once (`DetachesBrace`). `normalize_withBlanks` says that this
is the only exception, and that it always makes a difference.

The two walks, with and without the blank lines, are in the same state behind every token. What is
needed of that state is `TerminatorWalk.Follows`: a statement can end behind the settled tokens exactly
if the token before the next one ends a statement, unless an opening brace comes next.
-/
namespace Scriptlet

/-- A token with the line breaks that are put in behind it. -/
structure SpacedToken where
  /-- The token. -/
  token : Token
  /-- The line breaks behind it. -/
  blanks : List Token
  /-- They are put in only behind a line break. -/
  isBreak : blanks ≠ [] → token.kind = .newline
  /-- They are line breaks. -/
  areBreaks : ∀ b ∈ blanks, b.kind = .newline

/-- The tokens as they were. -/
def withoutBlanks (ps : List SpacedToken) : List Token :=
  ps.map SpacedToken.token

/-- The tokens with the line breaks that are put in. -/
def withBlanks (ps : List SpacedToken) : List Token :=
  ps.flatMap fun p => p.token :: p.blanks

/-- Behind the tokens `before`, outside of parentheses and behind a word that can end a statement, line
breaks are put in between a line break and an opening brace. -/
def OpensGap (before : List Token) (gap brace : SpacedToken) : Prop :=
  gap.blanks ≠ [] ∧ brace.token.kind = .leftBrace ∧ depthOf before = 0 ∧
    ∃ u ∈ before.getLast?, u.kind.endsStatement = true

instance (before : List Token) (gap brace : SpacedToken) : Decidable (OpensGap before gap brace) :=
  inferInstanceAs (Decidable (_ ∧ _ ∧ _ ∧ _))

/-- An opening brace is cut off from the line before it, where `done` has gone before. -/
def DetachesBehind (done : List Token) (ps : List SpacedToken) : Prop :=
  ∃ before gap brace after, ps = before ++ gap :: brace :: after ∧
    OpensGap (done ++ withoutBlanks before) gap brace

/-- **An opening brace is cut off** from the line before it. -/
def DetachesBrace (ps : List SpacedToken) : Prop :=
  DetachesBehind [] ps

theorem detachesBehind_cons {done : List Token} {p : SpacedToken} {ps : List SpacedToken} :
    DetachesBehind done (p :: ps) ↔
      (∃ brace ∈ ps.head?, OpensGap done p brace) ∨ DetachesBehind (done ++ [p.token]) ps := by
  constructor
  · rintro ⟨before, gap, brace, after, hps, hgap⟩
    cases before with
    | nil =>
      obtain ⟨rfl, rfl⟩ := List.cons.inj hps
      exact .inl ⟨brace, rfl, by simpa [withoutBlanks] using hgap⟩
    | cons q before =>
      obtain ⟨rfl, rfl⟩ := List.cons.inj hps
      exact .inr ⟨before, gap, brace, after, rfl, by simpa [withoutBlanks] using hgap⟩
  · rintro (⟨brace, hbrace, hgap⟩ | ⟨before, gap, brace, after, rfl, hgap⟩)
    · obtain ⟨after, rfl⟩ := List.head?_eq_some_iff.mp hbrace
      exact ⟨[], p, brace, after, rfl, by simpa [withoutBlanks] using hgap⟩
    · exact ⟨p :: before, gap, brace, after, rfl, by simpa [withoutBlanks] using hgap⟩

theorem not_detachesBehind_nil (done : List Token) : ¬ DetachesBehind done [] := by
  rintro ⟨before, gap, brace, after, hnil, -⟩
  simp at hnil

instance decidableDetachesBehind (done : List Token) :
    ∀ ps : List SpacedToken, Decidable (DetachesBehind done ps)
  | [] => .isFalse (not_detachesBehind_nil done)
  | p :: ps =>
    have := decidableDetachesBehind (done ++ [p.token]) ps
    decidable_of_iff _ detachesBehind_cons.symm

instance (ps : List SpacedToken) : Decidable (DetachesBrace ps) :=
  decidableDetachesBehind [] ps

/-- The outcome with blank lines is another one: something is reported, or there are other words. -/
def Normalized.DiffersFrom (spaced plain : Normalized) : Prop :=
  spaced.reports ≠ [] ∨ spaced.tokens.map Token.word ≠ plain.tokens.map Token.word

namespace TerminatorWalk

variable {w w' : TerminatorWalk} {t last : Token} {done rest rest' : List Token}

/-! ## Steps do not depend on what follows -/

/-- A word that can end a statement is the last one settled. -/
def IsEnded (w : TerminatorWalk) : Prop :=
  ∃ u ∈ w.settled.head?, u.kind.endsStatement = true

theorem canEnd_iff_isEnded (hlast : last.kind = .endOfFile) :
    w.canEnd (rest ++ [last]) = true ↔ w.IsEnded := by
  constructor
  · intro hcan
    obtain ⟨u, us, hu, hends⟩ := exists_settled_of_canEnd hlast hcan
    exact ⟨u, by simp [hu], hends⟩
  · rintro ⟨u, hu, hends⟩
    obtain ⟨us, hus⟩ := List.head?_eq_some_iff.mp hu
    simp [canEnd, previous?, hus, hends]

/-- **A step in order is what the walk does.** -/
theorem Step.run_eq (h : Step w t (rest ++ [last]) w') :
    w.run (t :: (rest ++ [last])) = w'.run (rest ++ [last]) := by
  obtain ⟨next, more, hnext⟩ : ∃ next more, rest ++ [last] = next :: more :=
    List.exists_cons_of_ne_nil (by simp)
  rw [hnext] at h ⊢
  cases h with
  | word ht => exact run_settle ht
  | skip ht hopen =>
    conv => lhs; rw [run.eq_def]
    by_cases hend : w.depth = 0 ∧ w.canEnd (t :: next :: more) = true
    · have hbrace : next.kind = .leftBrace := by simpa using hopen hend.1 hend.2
      simp only [ht, hend, and_self, if_true, hbrace]
    · simp only [ht, hend, if_false]
  | lineEnd ht hdepth hend hopen hstyle =>
    exact run_newline_of_canEnd ht hdepth hend (by simpa using hopen) hstyle
  | semicolon ht hdepth hend hstyle =>
    exact run_semicolon ht (semicolonProblem?_eq_none.mpr ⟨hdepth, hstyle, hend⟩)

/-- Only the kind of the next token matters for a step. -/
theorem Step.congr (h : Step w t (rest ++ [last]) w') (hlast : last.kind = .endOfFile)
    (hhead : (rest' ++ [last]).head?.map Token.kind = (rest ++ [last]).head?.map Token.kind) :
    Step w t (rest' ++ [last]) w' := by
  have hcan : w.canEnd (t :: (rest' ++ [last])) = w.canEnd (t :: (rest ++ [last])) := by
    rw [← List.cons_append, ← List.cons_append, Bool.eq_iff_iff, canEnd_iff_isEnded hlast,
      canEnd_iff_isEnded hlast]
  cases h with
  | word ht => exact .word ht
  | skip ht hopen => exact .skip ht (by rwa [hcan, hhead])
  | lineEnd ht hdepth hend hnext hstyle =>
    exact .lineEnd ht hdepth (by rwa [hcan]) (by rwa [hhead]) hstyle
  | semicolon ht hdepth hend hstyle => exact .semicolon ht hdepth (by rwa [hcan]) hstyle

/-- Line breaks where no statement can end disappear. -/
theorem run_breaks {bs : List Token} (hlast : last.kind = .endOfFile)
    (hbs : ∀ b ∈ bs, b.kind = .newline) (hw : w.depth = 0 → ¬ w.IsEnded) :
    w.run (bs ++ (rest ++ [last])) = w.run (rest ++ [last]) := by
  induction bs with
  | nil => rfl
  | cons b bs ih =>
    have hskip : Step w b (bs ++ rest ++ [last]) w := by
      refine .skip (hbs b List.mem_cons_self) fun hdepth hcan => ?_
      rw [← List.cons_append, canEnd_iff_isEnded hlast] at hcan
      exact absurd hcan (hw hdepth)
    have hrun := hskip.run_eq
    rw [List.append_assoc] at hrun
    rw [List.cons_append, hrun, ih fun c hc => hbs c (List.mem_cons_of_mem _ hc)]

/-! ## The state behind the tokens that have been passed -/

/-- The walk has passed the tokens `done`, and a token of kind `next` follows. -/
structure Follows (w : TerminatorWalk) (done : List Token) (next : Option TokenKind) : Prop where
  depth : w.depth = depthOf done
  /-- A word that can end a statement is settled. -/
  settled : ∀ u ∈ done.getLast?, u.kind.endsStatement = true → w.settled.head? = some u
  /-- Nothing has been passed behind the last settled word, or a line break before a brace. -/
  passed : w.depth = 0 → ∀ u ∈ w.settled.head?, u.kind.endsStatement = true →
    next = some .leftBrace ∨ done.getLast? = some u

theorem follows_start (next : Option TokenKind) : Follows {} [] next :=
  ⟨rfl, by simp, by simp⟩

/-- Where no word ends a statement on either side, only the depth is left to show. -/
theorem Follows.of_ends {next : Option TokenKind} (hdepth : w.depth = depthOf (done ++ [t]))
    (ht : t.kind.endsStatement = false)
    (hw : ∀ u ∈ w.settled.head?, u.kind.endsStatement = false) : Follows w (done ++ [t]) next := by
  refine ⟨hdepth, ?_, ?_⟩
  · intro u hu hends
    obtain rfl : t = u := by simpa using hu
    rw [ht] at hends
    cases hends
  · intro _ u hu hends
    rw [hw u hu] at hends
    cases hends

/-- **Every step in order keeps the state.** -/
theorem Follows.step {next : Option TokenKind} (h : Follows w done next)
    (hs : Step w t (rest ++ [last]) w') :
    Follows w' (done ++ [t]) ((rest ++ [last]).head?.map Token.kind) := by
  have hdepth : depthOf (done ++ [t]) = depthBehind w.depth t.kind := by
    rw [depthOf_concat, h.depth]
  cases hs with
  | word ht =>
    refine ⟨hdepth.symm, ?_, ?_⟩
    · intro u hu _
      simpa [settle] using hu
    · intro _ u hu _
      exact .inr (by simpa [settle] using hu)
  | skip ht hopen =>
    refine ⟨by rw [hdepth, ht]; rfl, ?_, ?_⟩
    · intro u hu hends
      obtain rfl : t = u := by simpa using hu
      rw [ht] at hends
      cases hends
    · intro hzero u hu hends
      obtain ⟨us, hus⟩ := List.head?_eq_some_iff.mp hu
      exact .inl (hopen hzero (by simp [canEnd, previous?, hus, hends]))
  | lineEnd ht =>
    exact .of_ends (by rw [hdepth, ht]; rfl) (by rw [ht]; rfl)
      (by simp [settle, Token.semicolonAt, TokenKind.endsStatement])
  | semicolon ht =>
    exact .of_ends (by rw [hdepth, ht]; rfl) (by rw [ht]; rfl)
      (by simp [settle, ht, TokenKind.endsStatement])

/-! ## With and without blank lines -/

theorem prefix_of_reverse_append (us : List Token) {settled out : List Token}
    (h : (us ++ settled).reverse <+: out) : settled.reverse <+: out := by
  rw [List.reverse_append] at h
  exact (List.prefix_append _ _).trans h

/-- What is settled stands in front of the outcome. -/
theorem settled_prefix_run (w : TerminatorWalk) (ts : List Token) :
    w.settled.reverse <+: (w.run ts).tokens := by
  fun_induction run w ts with
  | case1 | case3 | case11 => exact List.prefix_append _ _
  | case2 w last rest hlast =>
    unfold finish
    split
    · split
      · rw [List.append_assoc]
        exact List.prefix_append _ _
      · exact List.prefix_append _ _
    · exact List.prefix_append _ _
  | case4 _ _ _ _ _ _ _ ih | case7 _ _ _ _ _ ih => exact ih
  | case5 _ t _ next _ _ _ _ ih =>
    exact prefix_of_reverse_append [Token.semicolonAt next.pos, t] ih
  | case6 _ t _ _ _ _ _ _ ih => exact prefix_of_reverse_append [Token.semicolonAt t.pos] ih
  | case8 _ t _ _ ih | case9 _ t _ _ ih | case10 _ t _ _ _ ih | case13 _ t _ _ _ _ _ _ ih =>
    exact prefix_of_reverse_append [t] ih
  | case12 =>
    rename_i t _ _ _ next _ _ ih
    exact prefix_of_reverse_append [next, t] ih

theorem cons_prefix_run {x : TerminatorWalk} (hx : x.settled = t :: w.settled) (ts : List Token) :
    w.settled.reverse ++ [t] <+: (x.run ts).tokens := by
  rw [← List.reverse_cons, ← hx]
  exact settled_prefix_run x ts

/-- The same token comes first, with and without blank lines. -/
theorem head?_withBlanks (ps : List SpacedToken) :
    (withBlanks ps ++ [last]).head? = (withoutBlanks ps ++ [last]).head? := by
  cases ps <;> rfl

/-- A line break with blank lines behind it is passed as the line break alone, if no brace is cut
off. -/
theorem Step.run_blanks {p : SpacedToken} (hs : Step w p.token (rest ++ [last]) w')
    (hlast : last.kind = .endOfFile) (hp : p.blanks ≠ [])
    (hbrace : w.depth = 0 → w.IsEnded → (rest ++ [last]).head?.map Token.kind ≠ some .leftBrace) :
    w.run (p.token :: (p.blanks ++ (rest' ++ [last]))) = w'.run (rest' ++ [last]) := by
  have hbreak := p.isBreak hp
  have hnext : (p.blanks ++ rest' ++ [last]).head?.map Token.kind = some .newline := by
    obtain ⟨b, bs, hbs⟩ := List.exists_cons_of_ne_nil hp
    simp [hbs, p.areBreaks b (by simp [hbs])]
  rw [← List.append_assoc]
  cases hs with
  | word ht => exact absurd hbreak ht.1
  | semicolon ht =>
    rw [hbreak] at ht
    cases ht
  | skip ht hopen =>
    have hidle : w.depth = 0 → ¬ w.IsEnded := by
      intro hdepth hended
      refine hbrace hdepth hended (hopen hdepth ?_)
      rw [← List.cons_append]
      exact (canEnd_iff_isEnded hlast).mpr hended
    have hskip : Step w p.token (p.blanks ++ rest' ++ [last]) w := by
      refine .skip ht fun hdepth hcan => ?_
      rw [← List.cons_append, canEnd_iff_isEnded hlast] at hcan
      exact absurd hcan (hidle hdepth)
    rw [hskip.run_eq, List.append_assoc, run_breaks hlast p.areBreaks hidle]
  | lineEnd ht hdepth hend _ hstyle =>
    have hended : w.IsEnded := by
      rwa [← List.cons_append, canEnd_iff_isEnded hlast] at hend
    have hline : Step w p.token (p.blanks ++ rest' ++ [last])
        { w.settle (Token.semicolonAt p.token.pos) with style := some .newlines } := by
      refine .lineEnd ht hdepth ?_ (by rw [hnext]; decide) hstyle
      rw [← List.cons_append]
      exact (canEnd_iff_isEnded hlast).mpr hended
    -- behind the semicolon no statement can end
    rw [hline.run_eq, List.append_assoc, run_breaks hlast p.areBreaks]
    rintro - ⟨u, hu, hends⟩
    obtain rfl : Token.semicolonAt p.token.pos = u := by simpa [settle] using hu
    cases hends

/-- **Cutting off a brace makes a difference**: the line break before it ends a statement then, which
is a mistake if semicolons are used. -/
theorem differs_of_gap {p brace : SpacedToken} {more : List Token}
    (hlast : last.kind = .endOfFile) (hp : p.blanks ≠ []) (hbrace : brace.token.kind = .leftBrace)
    (hdepth : w.depth = 0) (hended : w.IsEnded) :
    (w.run (p.token :: (p.blanks ++ (rest' ++ [last])))).DiffersFrom
      (w.run (p.token :: (brace.token :: more ++ [last]))) := by
  obtain ⟨b, bs, hbs⟩ := List.exists_cons_of_ne_nil hp
  have hb : b.kind = .newline := p.areBreaks b (by simp [hbs])
  have hcan : ∀ ts, w.canEnd (p.token :: (ts ++ [last])) = true := by
    intro ts
    rw [← List.cons_append]
    exact (canEnd_iff_isEnded hlast).mpr hended
  -- without blank lines the brace is settled next
  have hplain : w.settled.reverse ++ [brace.token] <+:
      (w.run (p.token :: (brace.token :: more ++ [last]))).tokens := by
    have hskip : Step w p.token (brace.token :: more ++ [last]) w :=
      .skip (p.isBreak hp) fun _ _ => by simp [hbrace]
    rw [hskip.run_eq, List.cons_append, run_settle (by simp [hbrace])]
    exact cons_prefix_run rfl _
  by_cases hstyle : w.style = some .semicolons
  · refine .inl fun hnone => ?_
    rw [← List.append_assoc] at hnone
    obtain ⟨w', hstep, -⟩ := exists_step_of_reports (by simp [p.isBreak hp]) hnone
    cases hstep with
    | word ht => exact ht.1 (p.isBreak hp)
    | semicolon ht =>
      rw [p.isBreak hp] at ht
      cases ht
    | lineEnd _ _ _ _ hother => exact hother hstyle
    | skip _ hopen =>
      have hhead := hopen hdepth (hcan _)
      simp [hbs, hb] at hhead
  · refine .inr fun hsame => ?_
    have hline : Step w p.token (p.blanks ++ rest' ++ [last])
        { w.settle (Token.semicolonAt p.token.pos) with style := some .newlines } :=
      .lineEnd (p.isBreak hp) hdepth (hcan _) (by simp [hbs, hb]) hstyle
    have hspaced : w.settled.reverse ++ [Token.semicolonAt p.token.pos] <+:
        (w.run (p.token :: (p.blanks ++ (rest' ++ [last])))).tokens := by
      rw [← List.append_assoc, hline.run_eq]
      exact cons_prefix_run rfl _
    have hwords := hspaced.map Token.word
    rw [hsame] at hwords
    have hequal := (List.prefix_of_prefix_length_le hwords (hplain.map Token.word)
      (by simp)).eq_of_length (by simp)
    rw [List.map_append, List.map_append] at hequal
    have hkind : Token.word (Token.semicolonAt p.token.pos) = brace.token.word := by
      simpa using List.append_cancel_left hequal
    have hsemi : TokenKind.semicolon = brace.token.kind := congrArg Word.kind hkind
    rw [hbrace] at hsemi
    cases hsemi

/-- A brace is cut off by the blank lines behind a token if a statement can end there. -/
theorem Follows.opensGap {p : SpacedToken} {ps : List SpacedToken} (hlast : last.kind = .endOfFile)
    (h : Follows w done (some p.token.kind)) (hp : p.blanks ≠ []) (hdepth : w.depth = 0)
    (hended : w.IsEnded)
    (hhead : (withoutBlanks ps ++ [last]).head?.map Token.kind = some .leftBrace) :
    ∃ brace ∈ ps.head?, OpensGap done p brace := by
  cases ps with
  | nil =>
    have hend : last.kind = .leftBrace := by simpa [withoutBlanks] using hhead
    rw [hlast] at hend
    cases hend
  | cons brace ps =>
    have hbrace : brace.token.kind = .leftBrace := by simpa [withoutBlanks] using hhead
    obtain ⟨u, hu, hends⟩ := hended
    refine ⟨brace, rfl, hp, hbrace, h.depth ▸ hdepth, u, ?_, hends⟩
    refine (h.passed hdepth u hu hends).resolve_left fun hnext => ?_
    rw [p.isBreak hp] at hnext
    cases hnext

/-- **A whole walk with blank lines.** It ends as the one without them, if no brace is cut off, and
else not. -/
theorem Follows.run_withBlanks {ps : List SpacedToken} (hlast : last.kind = .endOfFile)
    (h : Follows w done ((withoutBlanks ps ++ [last]).head?.map Token.kind))
    (hps : ∀ p ∈ ps, p.token.kind ≠ .endOfFile)
    (hreports : (w.run (withoutBlanks ps ++ [last])).reports = []) :
    (¬ DetachesBehind done ps →
      w.run (withBlanks ps ++ [last]) = w.run (withoutBlanks ps ++ [last])) ∧
    (DetachesBehind done ps →
      (w.run (withBlanks ps ++ [last])).DiffersFrom (w.run (withoutBlanks ps ++ [last]))) := by
  induction ps generalizing w done with
  | nil => exact ⟨fun _ => rfl, fun hgap => absurd hgap (not_detachesBehind_nil done)⟩
  | cons p ps ih =>
    have hplain : withoutBlanks (p :: ps) ++ [last] = p.token :: (withoutBlanks ps ++ [last]) := rfl
    have hspaced : withBlanks (p :: ps) ++ [last] =
        p.token :: (p.blanks ++ (withBlanks ps ++ [last])) := by
      simp [withBlanks]
    rw [hplain] at hreports
    obtain ⟨w', hstep, hrun⟩ := exists_step_of_reports (hps p List.mem_cons_self) hreports
    rw [hrun] at hreports
    have hbehind := ih (h.step hstep) (fun q hq => hps q (List.mem_cons_of_mem _ hq)) hreports
    rw [hplain, hspaced, detachesBehind_cons]
    by_cases hgap : ∃ brace ∈ ps.head?, OpensGap done p brace
    · refine ⟨fun hnot => absurd (.inl hgap) hnot, fun _ => ?_⟩
      obtain ⟨brace, hbrace, hblanks, hkind, hdepth, u, hu, hends⟩ := hgap
      obtain ⟨after, rfl⟩ := List.head?_eq_some_iff.mp hbrace
      exact differs_of_gap hlast hblanks hkind (h.depth.trans hdepth)
        ⟨u, h.settled u hu hends, hends⟩
    · -- both walks are in the same state behind the token
      have hsame : w.run (p.token :: (p.blanks ++ (withBlanks ps ++ [last]))) =
          w'.run (withBlanks ps ++ [last]) := by
        by_cases hp : p.blanks = []
        · rw [hp, List.nil_append]
          exact (hstep.congr hlast (by rw [head?_withBlanks])).run_eq
        · exact hstep.run_blanks hlast hp fun hdepth hended hhead =>
            hgap (h.opensGap hlast hp hdepth hended hhead)
      rw [hsame, hrun, or_iff_right hgap]
      exact hbehind

end TerminatorWalk

/-- **Blank lines make a difference only where they cut off a brace.** A program that is normalized
without a report, and so without a fault, has the same outcome with any number of line breaks behind
its line breaks, unless an opening brace is cut off from the line before it; then something is reported
or there are other words. -/
theorem normalize_withBlanks {ps : List SpacedToken} {last : Token} (hlast : last.kind = .endOfFile)
    (hps : ∀ p ∈ ps, p.token.kind ≠ .endOfFile)
    (hreports : (normalize (withoutBlanks ps ++ [last])).reports = []) :
    (normalize (withoutBlanks ps ++ [last])).fault = none ∧
      (¬ DetachesBrace ps →
        normalize (withBlanks ps ++ [last]) = normalize (withoutBlanks ps ++ [last])) ∧
      (DetachesBrace ps →
        (normalize (withBlanks ps ++ [last])).DiffersFrom
          (normalize (withoutBlanks ps ++ [last]))) := by
  have hbody : ∀ t ∈ withoutBlanks ps, t.kind ≠ .endOfFile := by
    intro t ht
    obtain ⟨p, hp, rfl⟩ := List.mem_map.mp ht
    exact hps p hp
  obtain ⟨w, -, hrun⟩ := TerminatorWalk.kept_start.run hlast hbody hreports
  refine ⟨?_, (TerminatorWalk.follows_start _).run_withBlanks hlast hps hreports⟩
  rw [normalize, hrun]
  rfl

/-- A token behind which nothing is put in. -/
def SpacedToken.alone (t : Token) : SpacedToken :=
  ⟨t, [], fun h => absurd rfl h, List.forall_mem_nil _⟩

/-- A line break with a blank line behind it. -/
def SpacedToken.blankLine (p q : Pos) : SpacedToken :=
  ⟨⟨.newline, .text "\\n", p⟩, [⟨.newline, .text "\\n", q⟩], fun _ => rfl,
    List.forall_mem_singleton.mpr rfl⟩

/-- The lines `x`, `if y {` and `}`, with a blank line behind each of them. -/
def spacedStatements : List SpacedToken :=
  [.alone ⟨.identifier, .text "x", ⟨1, 1⟩⟩, .blankLine ⟨1, 2⟩ ⟨2, 1⟩,
   .alone ⟨.ifWord, .text "if", ⟨3, 2⟩⟩, .alone ⟨.identifier, .text "y", ⟨3, 4⟩⟩,
   .alone ⟨.leftBrace, .text "\x7b", ⟨3, 5⟩⟩, .blankLine ⟨3, 7⟩ ⟨4, 1⟩,
   .alone ⟨.rightBrace, .text "\x7d", ⟨5, 0⟩⟩, .blankLine ⟨5, 2⟩ ⟨6, 1⟩]

theorem spacedStatements_normalize :
    (normalize (withoutBlanks spacedStatements ++ [Token.endOfFile])).reports = [] ∧
      ¬ DetachesBrace spacedStatements ∧
      normalize (withBlanks spacedStatements ++ [Token.endOfFile]) =
        normalize (withoutBlanks spacedStatements ++ [Token.endOfFile]) :=
  ⟨by decide, by decide, (normalize_withBlanks rfl (by decide) (by decide)).2.1 (by decide)⟩

/-- The lines `if y`, `{` and `}`, with a blank line behind the first of them. -/
def spacedHeader : List SpacedToken :=
  [.alone ⟨.ifWord, .text "if", ⟨1, 2⟩⟩, .alone ⟨.identifier, .text "y", ⟨1, 4⟩⟩,
   .blankLine ⟨1, 5⟩ ⟨2, 1⟩, .alone ⟨.leftBrace, .text "\x7b", ⟨3, 0⟩⟩,
   .alone ⟨.rightBrace, .text "\x7d", ⟨4, 0⟩⟩]

/-- The header is a statement of its own, if a blank line stands between it and the block. -/
theorem spacedHeader_normalize_differs :
    (normalize (withoutBlanks spacedHeader ++ [Token.endOfFile])).reports = [] ∧
      (normalize (withoutBlanks spacedHeader ++ [Token.endOfFile])).tokens.map Token.kind =
        [.ifWord, .identifier, .leftBrace, .rightBrace, .endOfFile] ∧
      (normalize (withBlanks spacedHeader ++ [Token.endOfFile])).tokens.map Token.kind =
        [.ifWord, .identifier, .semicolon, .leftBrace, .rightBrace, .endOfFile] := by
  decide

end Scriptlet
