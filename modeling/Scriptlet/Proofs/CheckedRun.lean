import Scriptlet.Proofs.CheckSteps
import Scriptlet.Proofs.SideBySide

/-! # Running a program after its check

The checker records symbols in the very scopes that the program then runs in. A run does not know of
symbols: a variable that the checker has recorded, and that is read before the run has given it a
value, has its symbol for a value, where it would have none without the check.

Nothing else of a check is left behind, so the two runs can differ only behind such a read. This
module follows both runs side by side: they show the same as long as no recorded name is read, even
if recorded names are assigned to, for an assignment binds no new name (`Run.BindsBehind`).
-/
namespace Scriptlet.Run

/-! ## Two runs side by side -/

/-- The first scopes bind no name at all, the second those that `σ` binds. -/
def BindsBehind (σ τ τ' : Scopes) : Prop :=
  (∀ i x, τ.binds i x = false) ∧ ∀ i x, τ'.binds i x = σ.binds i x

/-! ## Runs that read no recorded name -/

/-- On the way, the job reads no name that is bound in `σ`. -/
def ReadsNone (budget : Nat) (σ : Scopes) (q : Job × Machine) : Prop :=
  ∀ i x p m, Relation.ReflTransGen (Starts budget) q (.value i (.identifier x p), m) →
    σ.binds i x = false

variable {budget : Nat} {σ : Scopes} {i : ScopeId} {m m' : Machine}

theorem ReadsNone.step {q q' : Job × Machine} (h : ReadsNone budget σ q) (hq : Starts budget q q') :
    ReadsNone budget σ q' :=
  fun i x p m hreach => h i x p m (.head hq hreach)

/-- Where no recorded name is read, the names that are bound stay the same: an assignment binds no
name in either run. -/
theorem relates_of_readsNone (budget : Nat) (σ : Scopes) :
    Relates budget (BindsBehind σ) (ReadsNone budget σ) where
  starts h hq := h.step hq
  read := by
    intro i x p m σ' hreads hσ'
    have hx : σ'.binds i x = false := (hσ'.2 i x).trans (hreads i x p m .refl)
    rw [Scopes.get?_of_not_binds (hσ'.1 i x), Scopes.get?_of_not_binds hx]
  assign v _ _ _ h :=
    ⟨fun j y => (Scopes.binds_assign _ _ _ _ _ _).trans (h.1 j y),
      fun j y => (Scopes.binds_assign _ _ _ _ _ _).trans (h.2 j y)⟩

/-! ## Programs -/

/-- **What a check does to the run behind it.** Let a program have been read without a mistake, and
let its check return without a report. If a run without the check reads no name that the check has
recorded, seen from where it is read, then the run behind the check writes, reads and reports the
same and ends the same way.

Such a read is what makes a difference: a recorded name has no value without the check, and its
symbol for a value behind it. -/
theorem program_after_check {n : Node} {σ : Scopes} (hn : IsParsed n σ) {s : CheckState}
    (hcheck : Check.program n ⟨σ, []⟩ = .ok () s) (hquiet : s.reports = []) (budget : Nat)
    (input : List String) :
    ((∀ i x p m, Relation.ReflTransGen (Starts budget)
        (.program n, { scopes := σ, input := input }) (.value i (.identifier x p), m) →
          s.scopes.binds i x = false) →
      SameOutcome ShowsSame (program budget n { scopes := σ, input := input })
        (program budget n { scopes := s.scopes, input := input, reports := s.reports })) ∧
    ∀ i x p (m : Machine), s.scopes.binds i x = true →
      eval i (.identifier x p) (m.withScopes σ) = .ok .absent (m.withScopes σ) ∧
      ∃ symbol, eval i (.identifier x p) (m.withScopes s.scopes) =
        .ok (.symbol symbol) (m.withScopes s.scopes) := by
  obtain ⟨-, -, -, hσ⟩ := hn.exists_statements
  constructor
  · intro hreads
    have hstart : Beside (BindsBehind s.scopes) { scopes := σ, input := input }
        { scopes := s.scopes, input := input, reports := s.reports } :=
      ⟨⟨rfl, rfl, hquiet⟩, hσ.binds_eq_false, fun _ _ => rfl⟩
    have hsame := (relates_of_readsNone budget s.scopes).program n hstart hreads
    exact hsame.mono fun _ _ h => h.toShowsSame
  · intro i x p m hx
    have hsymbols : s.scopes.HoldsSymbols := Check.holdsSymbols_of_isParsed hn hcheck
    rw [Scopes.binds_eq_isSome_get?, Option.isSome_iff_exists] at hx
    obtain ⟨v, hv⟩ := hx
    obtain ⟨symbol, rfl⟩ := hsymbols.get? hv
    refine ⟨?_, symbol, ?_⟩
    · rw [eval_identifier]
      show EStateM.Result.ok ((σ.get? i x).getD .absent) _ = _
      rw [Scopes.get?_of_not_binds (hσ.binds_eq_false i x)]
      rfl
    · rw [eval_identifier]
      show EStateM.Result.ok ((s.scopes.get? i x).getD .absent) _ = _
      rw [hv]
      rfl

/-- A job that reads no recorded name itself, and starts none that does. -/
theorem readsNone_of_next {job : Job} (hjob : ∀ i x p, job ≠ .value i (.identifier x p))
    (hnext : ∀ q, Starts budget (job, m) q → ReadsNone budget σ q) :
    ReadsNone budget σ (job, m) := by
  intro i x p m' hreach
  rcases Relation.ReflTransGen.cases_head hreach with heq | ⟨q, hq, hreach⟩
  · cases heq
    exact absurd rfl (hjob i x p)
  · exact hnext q hq i x p m' hreach

/-- `writeline(1)` and then `var int x = 5` -/
def writeAndDeclare : Node :=
  .program [.call "writeline" [.literal .int (.int 1) ⟨1, 11⟩],
    .declaration "x" "int" true (.literal .int (.int 5) ⟨2, 13⟩)] Scopes.root

set_option maxRecDepth 20000 in
theorem writeAndDeclare_isParsed : IsParsed writeAndDeclare {} :=
  have hread : (Reading.ofSource false [] "writeline(1)\nvar int x = 5\n").program? false =
      some (writeAndDeclare, {}) := by
    with_unfolding_all rfl
  isParsed_of_source hread

/-- The program reads no variable at all: it stops at the declaration. -/
theorem writeAndDeclare_readsNone (σ : Scopes) (m : Machine) :
    ReadsNone 0 σ (.program writeAndDeclare, m) := by
  have hliteral (v : Value) (p : Pos) (m : Machine) :
      ReadsNone 0 σ (.value Scopes.root (.literal .int v p), m) :=
    readsNone_of_next nofun nofun
  have hcall (m : Machine) :
      ReadsNone 0 σ (.one Scopes.root (.call "writeline" [.literal .int (.int 1) ⟨1, 11⟩]), m) := by
    refine readsNone_of_next nofun fun q hq => ?_
    cases hq
    refine readsNone_of_next nofun fun q hq => ?_
    cases hq
    refine readsNone_of_next nofun fun q hq => ?_
    cases hq with
    | head => exact hliteral _ _ _
    | tail => exact readsNone_of_next nofun nofun
  have hdeclaration (m : Machine) : ReadsNone 0 σ (.top Scopes.root
      [.declaration "x" "int" true (.literal .int (.int 5) ⟨2, 13⟩)], m) := by
    refine readsNone_of_next nofun fun q hq => ?_
    cases hq with
    | topFirst =>
      refine readsNone_of_next nofun fun q hq => ?_
      cases hq
      exact hliteral _ _ _
    | topNext h => cases h
  refine readsNone_of_next nofun fun q hq => ?_
  cases hq with
  | enter hss hi =>
    cases hss
    cases hi
    refine readsNone_of_next nofun fun q hq => ?_
    cases hq with
    | topFirst => exact hcall _
    | topNext => exact hdeclaration _

/-- The check records the variable, and both runs write the number and stop at the declaration. -/
theorem writeAndDeclare_after_check :
    ∃ s, Check.program writeAndDeclare ⟨{}, []⟩ = .ok () s ∧ s.scopes.binds Scopes.root "x" = true ∧
      SameOutcome ShowsSame (program 0 writeAndDeclare {})
        (program 0 writeAndDeclare { scopes := s.scopes, reports := s.reports }) := by
  have hcheck : Check.program writeAndDeclare ⟨{}, []⟩ =
      .ok () ⟨Scopes.define {} Scopes.root "x" (.symbol ⟨"int", true, false⟩), []⟩ := by
    with_unfolding_all rfl
  have hafter := program_after_check writeAndDeclare_isParsed hcheck rfl 0 []
  exact ⟨_, hcheck, by with_unfolding_all rfl, hafter.1 (writeAndDeclare_readsNone _ _)⟩

/-- What a program that is read without a mistake, and of whose check nothing is reported, writes
without its check and behind it. -/
def outputsOf? (source : String) : Option (String × String) :=
  ((Reading.ofSource false [] source).program? false).bind fun (n, σ) =>
    match Check.program n ⟨σ, []⟩ with
    | .ok () s =>
      if s.reports.isEmpty then
        some ((lastState (program 0 n { scopes := σ })).output,
          (lastState (program 0 n { scopes := s.scopes })).output)
      else none
    | .error _ _ => none

/-- A variable that is written before its declaration has no value without the check, and behind it
its symbol is written. -/
theorem useBeforeDeclaration_differs :
    outputsOf? "writeline(x)\nvar int x = 5\n" =
      some ("None\n", "Symbol(type_name='int', is_mutable=True, is_none=False)\n") := by
  decide +kernel

end Scriptlet.Run
