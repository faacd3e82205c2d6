import Scriptlet.Proofs.RunReports
import Scriptlet.Proofs.ScriptCommands

/-! # The command that is to run a script

The command reads a script and checks its program. If the check ends well, then the keeper of the
reports is asked for something that it has not, whatever the check has reported. So the command
never gets to a run (`Fault.noSuchQuestion`).

No run ends with this fault: it is stopped behind a report, or a value or a node is at fault
(`Run.isLocal_or_stopped`). So there is no script for which the command ends as the run of its
program does.
-/
namespace Scriptlet

/-! ## How runs fail -/

namespace Run

variable {α : Type} {budget : Nat}

/-- Where the part of a run ends with a fault, it was stopped, or a value or a node is at fault. -/
def FailsInside (r : EStateM.Result Fault Machine α) : Prop :=
  ∀ f, fault? r = some f → f.isLocal = true ∨ f = .stopped

theorem Quiet.failsInside {x : Run α} (h : Quiet x) (m : Machine) : FailsInside (x m) :=
  fun f hf => .inl ((h m).2 f hf)

theorem Act.failsInside (act : Act) (m : Machine) : FailsInside (act.run m) := by
  rcases act.quiet_or_reports with hquiet | ⟨d, -, hstop⟩
  · exact hquiet.failsInside m
  · rw [hstop m]
    rintro f ⟨⟩
    exact .inr rfl

theorem failsInsideRules (budget : Nat) : Rules budget fun _ m x => FailsInside (x m) where
  ofExcept he := (quiet_ofExcept he).failsInside _
  bind := by
    intro α β q m x f hx hf
    cases hr : x m with
    | ok a m₁ =>
      rw [EStateM.bind_of_ok hr]
      exact hf a m₁ hr
    | error fault m₁ =>
      rw [EStateM.bind_of_error hr]
      rw [hr] at hx
      exact hx
  start _ hjob := hjob
  act {_ act m} _ := act.failsInside m

/-- **How a run fails**: it was stopped, or a value or a node is at fault. -/
theorem isLocal_or_stopped (n : Node) {m m' : Machine} {f : Fault}
    (h : program budget n m = .error f m') : f.isLocal = true ∨ f = .stopped := by
  have hfails := (failsInsideRules budget).run (.program n) m
  exact hfails f (congrArg fault? h)

end Run

/-! ## The command -/

/-- A command and a run end alike: both return, and then no reports are left, or both end with the
same fault; the same has been printed and the same is left of the input. -/
def EndsAlike : EStateM.Result Fault Session Unit → EStateM.Result Fault Machine Unit → Prop
  | .ok _ s, .ok _ m => s.output = m.output ∧ s.input = m.input ∧ s.reports = []
  | .error f s, .error g m => f = g ∧ s.output = m.output ∧ s.input = m.input
  | _, _ => False

namespace Command

/-- **No script is run.** Let a script be read without a report or a fault, and let its program be
checked without one. Then the command that is to run it prints nothing, reads nothing, leaves no
reports and ends with a fault. The run of the program in the checked scopes never ends so. -/
theorem runScript_runs_nothing {s : Session} {path source : String} {n : Node} {σ : Scopes}
    {c : CheckState} (hs : s.reports = []) (hopen : (s.folder.openScript path).2 = .ok source)
    (hread : (Reading.ofSource false [] source).program? false = some (n, σ))
    (hcheck : Check.program n ⟨σ, []⟩ = .ok () c) (hquiet : c.reports = []) :
    (∃ s', runScript path s = .error .noSuchQuestion s' ∧
      Fault.noSuchQuestion.message = "'ErrorReporter' object has no attribute 'has_error'" ∧
      s'.output = s.output ∧ s'.input = s.input ∧ s'.reports = []) ∧
    ∀ budget, ¬ EndsAlike (runScript path s)
      (Run.program budget n { scopes := c.scopes, input := s.input, output := s.output }) := by
  rw [Reading.program?] at hread
  split at hread
  · rename_i hgoes
    obtain ⟨hfault, hreports⟩ := Reading.goesOn_iff.mp hgoes
    have hrun : runScript path s = .error .noSuchQuestion
        { s with folder := (s.folder.openScript path).1, reports := c.reports } := by
      have hon := ScriptCommand.running.on_of_ok hopen
      rw [hs] at hon
      exact hon.trans ((examine_of_clean hfault hreports _).trans
        (checkThenFail_of_ok hread rfl hcheck))
    rw [hrun]
    refine ⟨⟨_, rfl, rfl, rfl, rfl, hquiet⟩, fun budget halike => ?_⟩
    cases hend : Run.program budget n { scopes := c.scopes, input := s.input, output := s.output } with
    | ok _ m =>
      rw [hend] at halike
      exact halike
    | error f m =>
      rw [hend] at halike
      obtain ⟨rfl, -⟩ := halike
      rcases Run.isLocal_or_stopped n hend with hlocal | hstopped
      · cases hlocal
      · cases hstopped
  · cases hread

/-- The program `writeline(1)`. -/
def writeOne : Node :=
  .program [.call "writeline" [.literal .int (.int 1) ⟨1, 11⟩]] Scopes.root

/-- A session with a script of this program. -/
def writeOneSession : Session :=
  { folder := .ofFiles [("a", "writeline(1)\n")] }

set_option maxRecDepth 20000 in
/-- The script is read and checked without a report, and it is not run. -/
theorem writeOne_runs_nothing :
    (Reading.ofSource false [] "writeline(1)\n").program? false = some (writeOne, {}) ∧
    Check.program writeOne ⟨{}, []⟩ = .ok () ⟨{}, []⟩ ∧
    (∃ s', runScript "a" writeOneSession = .error .noSuchQuestion s' ∧ s'.output = "") ∧
    ∀ budget, ¬ EndsAlike (runScript "a" writeOneSession) (Run.program budget writeOne {}) := by
  have hopen : (writeOneSession.folder.openScript "a").2 = .ok "writeline(1)\n" := by
    with_unfolding_all rfl
  have hread : (Reading.ofSource false [] "writeline(1)\n").program? false =
      some (writeOne, {}) := by
    with_unfolding_all rfl
  have hcheck : Check.program writeOne ⟨{}, []⟩ = .ok () ⟨{}, []⟩ := by
    with_unfolding_all rfl
  obtain ⟨⟨s', hrun, -, houtput, -⟩, hnever⟩ :=
    runScript_runs_nothing rfl hopen hread hcheck rfl
  exact ⟨hread, hcheck, ⟨s', hrun, houtput⟩, hnever⟩

/-- The run of the program writes the number, and the command writes nothing and fails. -/
theorem writeOne_differs :
    (lastState (Run.program 0 writeOne {})).output = "1\n" ∧
    fault? (Run.program 0 writeOne {}) = none ∧
    (lastState (runScript "a" writeOneSession)).output = "" ∧
    fault? (runScript "a" writeOneSession) = some .noSuchQuestion := by
  decide +kernel

end Command

end Scriptlet
