import Scriptlet.Proofs.Sequences
import Scriptlet.Typing.Condition

/-! # What a check guarantees

The checks of expressions leave the scopes alone and only add reports. What such a check answers can
be relied on in two ways: some facts hold of every answer, others only of an answer that was given
*quietly*, that is without a report. `Check.Meets` states both at once, and the rules below carry
them through sequences and choices, so that each check needs one statement.
-/
namespace Scriptlet.Check

variable {α β : Type}

/-- Started with the scopes `σ`, the check leaves them alone and only adds reports; of its answer
`always` holds in any case, and `quiet` holds if nothing was reported. -/
def Meets (σ : Scopes) (x : Check α) (always quiet : α → Prop) : Prop :=
  ∀ ⦃s : CheckState⦄ ⦃a : α⦄ ⦃s' : CheckState⦄, s.scopes = σ → x s = .ok a s' →
    s'.scopes = σ ∧ s.reports <+: s'.reports ∧ always a ∧ (s'.reports = s.reports → quiet a)

variable {σ : Scopes} {x : Check α} {always quiet : α → Prop}

theorem Meets.mono {always' quiet' : α → Prop} (h : Meets σ x always quiet)
    (halways : ∀ a, always a → always' a) (hquiet : ∀ a, always a → quiet a → quiet' a) :
    Meets σ x always' quiet' := by
  intro s a s' hs hx
  obtain ⟨hs', hreports, ha, hq⟩ := h hs hx
  exact ⟨hs', hreports, halways a ha, fun heq => hquiet a ha (hq heq)⟩

theorem meets_pure {a : α} (ha : always a) (hq : quiet a) :
    Meets σ (pure a : Check α) always quiet := by
  intro s b s' hs hx
  obtain ⟨rfl, rfl⟩ := EStateM.pure_eq_ok.mp hx
  exact ⟨hs, List.prefix_refl _, ha, fun _ => hq⟩

theorem meets_throw (f : Fault) : Meets σ (throw f : Check α) always quiet := by
  intro s a s' _ hx
  cases hx

/-- What does not depend on the state reports nothing. -/
theorem meets_ofExcept {e : Except Fault α} (h : ∀ a, e = .ok a → always a ∧ quiet a) :
    Meets σ (ofExcept e) always quiet := by
  cases e with
  | ok a => exact meets_pure (h a rfl).1 (h a rfl).2
  | error f => exact meets_throw f

/-- A sequence is quiet only if both of its parts are. -/
theorem Meets.bind {f : α → Check β} {always' quiet' : β → Prop} (hx : Meets σ x always quiet)
    (hf : ∀ a, always a → Meets σ (f a) always' (fun b => quiet a → quiet' b)) :
    Meets σ (x >>= f) always' quiet' := by
  intro s b s' hs h
  obtain ⟨a, t, ha, hb⟩ := EStateM.bind_eq_ok.mp h
  obtain ⟨ht, hpre, halways, hquiet⟩ := hx hs ha
  obtain ⟨hs', hpre', halways', hquiet'⟩ := hf a halways ht hb
  refine ⟨hs', hpre.trans hpre', halways', fun heq => ?_⟩
  have hlen : s'.reports.length ≤ t.reports.length := heq ▸ hpre.length_le
  have hmid : t.reports = s'.reports := hpre'.eq_of_length_le hlen
  exact hquiet' hmid.symm (hquiet (hmid.trans heq))

/-- A report is not quiet. -/
theorem meets_report (problem : TypeProblem) (n : Node) :
    Meets σ (report problem n) (fun _ => True) (fun _ => False) := by
  have hpos : Meets σ (ofExcept n.pos) (fun _ => True) (fun _ => True) :=
    meets_ofExcept fun _ _ => ⟨trivial, trivial⟩
  refine hpos.bind fun p _ => ?_
  intro s a s' hs hx
  cases hx
  exact ⟨hs, List.prefix_append _ _, trivial, fun heq => by simp at heq⟩

theorem Meets.ite {c : Prop} [Decidable c] {y : Check α} (hx : c → Meets σ x always quiet)
    (hy : ¬c → Meets σ y always quiet) : Meets σ (if c then x else y) always quiet := by
  by_cases hc : c
  · rw [if_pos hc]
    exact hx hc
  · rw [if_neg hc]
    exact hy hc

/-- A check that reports something and goes on is not quiet. -/
theorem Meets.after_report {problem : TypeProblem} {n : Node} {f : Unit → Check β}
    {always' quiet' : β → Prop} (hf : ∀ u, Meets σ (f u) always' (fun _ => True)) :
    Meets σ (report problem n >>= f) always' quiet' :=
  (meets_report problem n).bind fun u _ =>
    (hf u).mono (fun _ h => h) fun _ _ _ hfalse => hfalse.elim

end Scriptlet.Check
