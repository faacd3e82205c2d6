import Scriptlet.Proofs.NormalForm

/-! # Normalizing twice

A program in which every semicolon is in place and no line break is left is not changed by
normalizing, unless a last statement is open (`normalize_eq_self`). What normalizing has made of a
program without a report is such a program, if all its parentheses are closed: the semicolons that
stand for line breaks are then taken for semicolons of the program, and the one that was added at
the end keeps another one from being added. So normalizing is idempotent (`normalize_idempotent`).
-/
namespace Scriptlet

/-- The end of a program adds no semicolon: it has one, or its last word ends no statement. -/
def ClosedAtEnd (ts : List Token) : Prop :=
  (∃ t ∈ ts, t.kind = .semicolon) ∨ ∀ t ∈ ts.getLast?, t.kind.endsStatement = false

/-! ## A program in normal form stays as it is -/

namespace TerminatorWalk

/-- The walk behind tokens that have been settled as they are. -/
def behind (done : List Token) : TerminatorWalk where
  settled := done.reverse
  depth := depthOf done
  style := if done.any (·.kind = .semicolon) then some .semicolons else none

variable {done rest : List Token} {t last : Token}

theorem behind_concat (ht : t.kind ≠ .semicolon) :
    behind (done ++ [t]) =
      { (behind done).settle t with depth := depthBehind (behind done).depth t.kind } := by
  simp [behind, settle, ht]

theorem behind_concat_semicolon (ht : t.kind = .semicolon) :
    behind (done ++ [t]) = { (behind done).settle t with style := some .semicolons } := by
  simp [behind, settle, ht, depthBehind]

theorem style_behind (done : List Token) : (behind done).style ≠ some .newlines := by
  unfold behind
  split <;> simp

/-- **A token in place is passed as it is.** -/
theorem run_behind_cons (ht : t.kind ≠ .newline ∧ t.kind ≠ .endOfFile)
    (hplace : SemicolonsInPlace (done ++ [t])) :
    (behind done).run (t :: rest) = (behind (done ++ [t])).run rest := by
  by_cases hsemi : t.kind = .semicolon
  · obtain ⟨⟨u, hu, hends⟩, hdepth⟩ := hplace done t List.prefix_rfl hsemi
    have hcan : (behind done).canEnd (t :: rest) = true := by
      rw [List.getLast?_eq_head?_reverse] at hu
      obtain ⟨us, hus⟩ : ∃ us, done.reverse = u :: us := List.head?_eq_some_iff.mp hu
      simp [canEnd, previous?, behind, hus, hends]
    rw [behind_concat_semicolon hsemi]
    exact run_semicolon hsemi (semicolonProblem?_eq_none.mpr ⟨hdepth, style_behind done, hcan⟩)
  · rw [behind_concat hsemi]
    exact run_settle ⟨ht.1, hsemi, ht.2⟩

/-- All tokens are passed as they are. -/
theorem run_behind (done : List Token) {ts : List Token}
    (hts : ∀ t ∈ ts, t.kind ≠ .newline ∧ t.kind ≠ .endOfFile) (hplace : SemicolonsInPlace (done ++ ts)) :
    (behind done).run (ts ++ rest) = (behind (done ++ ts)).run rest := by
  induction ts generalizing done with
  | nil => rw [List.nil_append, List.append_nil]
  | cons t ts ih =>
    rw [List.append_cons] at hplace ⊢
    have hfirst : SemicolonsInPlace (done ++ [t]) := fun before semi hstart =>
      hplace before semi (hstart.trans (List.prefix_append _ _))
    rw [List.cons_append, run_behind_cons (hts t List.mem_cons_self) hfirst,
      ih _ (fun u hu => hts u (List.mem_cons_of_mem _ hu)) hplace]

theorem closed_behind (h : ClosedAtEnd done) : (behind done).Closed := by
  rcases h with hsome | hlast
  · exact .inl (by simpa [behind] using hsome)
  · exact .inr (by simpa [behind] using hlast)

end TerminatorWalk

/-- **A program in normal form is not changed**: no line break is in it, all its semicolons are in
place, and no statement is open at its end. -/
theorem normalize_eq_self {body : List Token} {last : Token} (hlast : last.kind = .endOfFile)
    (hbody : ∀ t ∈ body, t.kind ≠ .newline ∧ t.kind ≠ .endOfFile)
    (hplace : SemicolonsInPlace body) (hend : ClosedAtEnd body) :
    normalize (body ++ [last]) = ⟨body ++ [last], body.length, [], none⟩ := by
  have hrun : normalize (body ++ [last]) = (TerminatorWalk.behind body).run [last] :=
    TerminatorWalk.run_behind [] hbody hplace
  rw [hrun, TerminatorWalk.run_endOfFile hlast,
    (TerminatorWalk.closed_behind hend).finish_eq hlast]
  simp [TerminatorWalk.behind]

/-! ## The normal form of a program with closed parentheses -/

/-- Terminators do not change how deep in parentheses we are. -/
theorem depthOf_filter {p : Token → Bool}
    (hp : ∀ t, p t = false → t.kind = .newline ∨ t.kind = .semicolon) (ts : List Token) :
    depthOf (ts.filter p) = depthOf ts := by
  unfold depthOf
  generalize 0 = d
  induction ts generalizing d with
  | nil => rfl
  | cons t ts ih =>
    cases hpt : p t with
    | true => simp [hpt, ih]
    | false =>
      have hd : depthBehind d t.kind = d := by
        rcases hp t hpt with hk | hk <;> rw [hk] <;> rfl
      simp [hpt, ih, hd]

namespace TerminatorWalk

variable {w : TerminatorWalk} {done tail : List Token}

/-- The settled tokens are as deep in parentheses as those that have been passed. -/
theorem Kept.depthOf_eq (h : Kept w done) : depthOf w.settled.reverse = depthOf done := by
  have hsettled := depthOf_filter (p := fun t => decide (t.kind ≠ .semicolon)) (by simp_all)
    w.settled.reverse
  have hdone := depthOf_filter
    (p := fun t => decide (t.kind ≠ .newline ∧ t.kind ≠ .semicolon)) (by
      intro t ht
      simpa [Decidable.or_iff_not_imp_left] using ht) done
  rw [← hsettled, ← hdone, h.words]
  rfl

/-- The semicolon at the end of a program is in place, if all parentheses are closed. -/
theorem Kept.inPlace_closes (h : Kept w done) (hdepth : depthOf done = 0) (htail : w.Closes tail) :
    SemicolonsInPlace (w.settled.reverse ++ tail) := by
  rcases htail with ⟨-, rfl⟩ | ⟨-, u, us, p, hu, hends, rfl⟩
  · rw [List.append_nil]
    exact h.inPlace
  · exact h.inPlace.concat fun _ => ⟨⟨u, by simp [hu], hends⟩, by rw [h.depthOf_eq, hdepth]⟩

/-- Nothing is open behind it. -/
theorem Kept.closedAtEnd (h : Kept w done) (htail : w.Closes tail) :
    ClosedAtEnd (w.settled.reverse ++ tail) := by
  rcases htail with ⟨hstyle | hend, rfl⟩ | ⟨-, u, us, p, -, -, rfl⟩
  · obtain ⟨t, ht, hsemi⟩ := h.found hstyle
    exact .inl ⟨t, by simpa using ht, hsemi⟩
  · exact .inr (by simpa using hend)
  · exact .inl ⟨Token.semicolonAt p, by simp, rfl⟩

theorem Kept.plain_closes (h : Kept w done) (htail : w.Closes tail) :
    ∀ t ∈ w.settled.reverse ++ tail, t.kind ≠ .newline ∧ t.kind ≠ .endOfFile := by
  intro t ht
  rcases List.mem_append.mp ht with ht | ht
  · exact h.plain t (List.mem_reverse.mp ht)
  · simp [htail.kind_eq t ht]

end TerminatorWalk

/-- **Normalizing is idempotent.** If normalizing a program with closed parentheses reports nothing,
then normalizing its outcome gives the same tokens again, without a report and without a fault. -/
theorem normalize_idempotent {body : List Token} {last : Token} (hlast : last.kind = .endOfFile)
    (hbody : ∀ t ∈ body, t.kind ≠ .endOfFile) (hdepth : depthOf (body ++ [last]) = 0)
    (hreports : (normalize (body ++ [last])).reports = []) :
    (normalize (body ++ [last])).fault = none ∧
      (normalize (normalize (body ++ [last])).tokens).tokens = (normalize (body ++ [last])).tokens ∧
      (normalize (normalize (body ++ [last])).tokens).reports = [] ∧
      (normalize (normalize (body ++ [last])).tokens).fault = none := by
  obtain ⟨w, hkept, hrun⟩ := TerminatorWalk.kept_start.run hlast hbody hreports
  obtain ⟨tail, htail, htokens⟩ := TerminatorWalk.exists_closes w hlast
  rw [List.nil_append] at hkept
  have hclosed : depthOf body = 0 := by simpa [hlast, depthBehind] using hdepth
  have hout : (normalize (body ++ [last])).tokens = w.settled.reverse ++ tail ++ [last] := by
    rw [normalize, hrun, htokens]
  have hagain := normalize_eq_self hlast (hkept.plain_closes htail)
    (hkept.inPlace_closes hclosed htail) (hkept.closedAtEnd htail)
  rw [hout, hagain, normalize, hrun]
  exact ⟨rfl, rfl, rfl, rfl⟩

/-- Line breaks become semicolons, one more is added at the end, and the outcome stays. -/
theorem callAndName_normalize_twice :
    depthOf (callAndName ++ [Token.endOfFile]) = 0 ∧
      (normalize (callAndName ++ [Token.endOfFile])).reports = [] ∧
      (normalize (normalize (callAndName ++ [Token.endOfFile])).tokens).tokens =
        (normalize (callAndName ++ [Token.endOfFile])).tokens :=
  ⟨by decide, by decide, (normalize_idempotent rfl (by decide) (by decide) (by decide)).2.1⟩

end Scriptlet
