import Scriptlet.Proofs.ScriptCommands
import Mathlib.Algebra.Group.Nat.Even

/-! # Dialogues

A command that finds reports prints them and drops them, so one would think that no report is left
when the next line is asked for. But a script that makes its reader stumble leaves its reports, if
there were none before. The next script is then only scanned, the old reports are printed with those
of the scan, and the list is empty again.

So what is left at a prompt depends on the scripts that have been opened before it, the last ones
first: the list is empty exactly if an even number of them, one directly before the other, makes its
reader stumble. Where it is empty, what the next command prints depends on its script alone.
-/
namespace Scriptlet.Command

open Reading (stumbles)

/-! ## Turns -/

/-- The text of the script that is opened for the command on a line. -/
def opened? (s : Session) (line : String) : Option String :=
  match words line with
  | word :: path :: _ =>
    if word ∈ ScriptCommand.all.map ScriptCommand.word then (s.folder.openScript path).2.toOption
    else none
  | _ => none

/-- What is no command on a script changes no reports. -/
theorem exists_prints_perform {lead : String} {ws : List String}
    (h : ∀ word rest, ws = word :: rest → word ∉ ScriptCommand.all.map ScriptCommand.word) :
    ∃ text, Prints (perform lead ws) text none := by
  unfold perform
  split
  · exact absurd (by decide) (h _ _ rfl)
  · exact absurd (by decide) (h _ _ rfl)
  · exact absurd (by decide) (h _ _ rfl)
  · exact ⟨_, prints_printLine _⟩
  · exact exists_prints_forM _
  · exact ⟨_, prints_pure⟩

theorem perform_of_turn {line : String} {s s' : Session} (h : turn line s = .ok true s') :
    perform "" (words line) s = .ok () s' := by
  unfold turn at h
  generalize words line = ws at h
  split at h
  · cases h
  · obtain ⟨⟨⟩, s₁, hperform, hpure⟩ := EStateM.bind_eq_ok.mp h
    cases hpure
    exact hperform

/-- **What one turn does to the reports.** They stay as they are, unless a script is opened. Then
there are none afterwards, unless there were none before and the script makes its reader stumble. -/
theorem reports_of_turn {line : String} {s s' : Session} (h : turn line s = .ok true s') :
    (opened? s line = none ∧ s'.reports = s.reports) ∨
    ∃ source, opened? s line = some source ∧
      (s'.reports = [] ↔ ¬(s.reports = [] ∧ stumbles source = true)) := by
  have hperform := perform_of_turn h
  rw [opened?]
  cases hwords : words line with
  | nil =>
    rw [hwords] at hperform
    cases hperform
    exact .inl ⟨rfl, rfl⟩
  | cons word rest =>
    rw [hwords] at hperform
    by_cases hmem : word ∈ ScriptCommand.all.map ScriptCommand.word
    · obtain ⟨c, hc, rfl⟩ := List.mem_map.mp hmem
      rw [ScriptCommand.perform_eq hc] at hperform
      cases rest with
      | nil =>
        cases hperform
        exact .inl ⟨rfl, rfl⟩
      | cons path more =>
        obtain ⟨source, hopen, hreports⟩ := reports_of_onScript hperform
        refine .inr ⟨source, ?_, hreports⟩
        dsimp only
        rw [if_pos hmem, hopen]
        rfl
    · have hother : ∀ w r, word :: rest = w :: r →
          w ∉ ScriptCommand.all.map ScriptCommand.word := by
        rintro w r ⟨⟩
        exact hmem
      obtain ⟨text, hprints⟩ := exists_prints_perform hother
      obtain ⟨s₁, h₁, -, hreports⟩ := hprints s
      cases h₁.symm.trans hperform
      refine .inl ⟨?_, hreports⟩
      cases rest with
      | nil => rfl
      | cons path more => exact if_neg hmem

/-! ## Prompts -/

/-- The state in which a line is handed over, behind the prompt. -/
def asked (s : Session) (rest : List String) : Session :=
  { s with input := rest, output := s.output ++ prompt }

/-- **The prompts of a dialogue** over `lines` that starts in the state `s`: the lines `rest` are left
and the state is `s'`. The scripts `opened` have been opened on the way, the last one first. -/
inductive Prompts (s : Session) (lines : List String) :
    (opened : List String) → (rest : List String) → (s' : Session) → Prop
  /-- The first prompt. -/
  | start : Prompts s lines [] lines s
  /-- The prompt behind the next line. -/
  | next {opened rest : List String} {line : String} {s₁ s₂ : Session}
      (h : Prompts s lines opened (line :: rest) s₁)
      (hturn : turn (lineText line) (asked s₁ rest) = .ok true s₂) :
      Prompts s lines ((opened? s₁ (lineText line)).toList ++ opened) rest s₂

namespace Prompts

variable {s s' : Session} {lines opened rest : List String}

/-- At each prompt the dialogue goes on with the lines that are left. -/
theorem dialogue_eq (h : Prompts s lines opened rest s') :
    dialogue lines s = dialogue rest s' := by
  induction h with
  | start => rfl
  | @next opened rest line s₁ s₂ h hturn ih =>
    rw [ih, dialogue]
    exact EStateM.bind_of_ok hturn

theorem reports_iff (h : Prompts s lines opened rest s') (hs : s.reports = []) :
    s'.reports = [] ↔ Even (opened.takeWhile stumbles).length := by
  induction h with
  | start => simp [hs]
  | @next opened rest line s₁ s₂ h hturn ih =>
    obtain ⟨hnone, hreports⟩ | ⟨source, hsome, hreports⟩ := reports_of_turn hturn
    · rw [show opened? s₁ (lineText line) = none from hnone, hreports]
      exact ih
    · rw [show opened? s₁ (lineText line) = some source from hsome, hreports, Option.toList_some,
        List.singleton_append]
      cases hstumbles : stumbles source with
      | false => simp [hstumbles]
      | true =>
        -- one more of these scripts: what was empty is not, and what was not is
        rw [List.takeWhile_cons_of_pos hstumbles, List.length_cons, Nat.even_add_one, ← ih]
        simp [asked]

end Prompts

/-- The commands that print what they find answer alike wherever nothing was reported before. -/
theorem exists_answer_perform {word : String} (h : word ∈ ["token", "ast"]) (source : String) :
    ∃ text fault, ∀ s path more, s.reports = [] → (s.folder.openScript path).2 = .ok source →
      ∃ s', perform "" (word :: path :: more) s = ended fault s' ∧
        s'.output = s.output ++ text := by
  simp only [List.mem_cons, List.not_mem_nil, or_false] at h
  rcases h with rfl | rfl
  · refine ScriptCommand.showing.exists_answer_onScript source (fun r => ?_) ""
    obtain ⟨text, hprints⟩ := exists_prints_printTokens r
    exact ⟨text, none, hprints⟩
  · refine ScriptCommand.drawing.exists_answer_onScript source (fun r => ?_) ""
    obtain ⟨text, fault, -, hprints⟩ := exists_prints_printDrawing r
    exact ⟨text, fault, hprints⟩

/-- **When reports are left at a prompt.** A dialogue that starts without reports has none at a prompt
exactly if an even number of the scripts opened last, one directly before the other, makes its reader
stumble. At two such prompts, of any two dialogues, the same is printed for the same text of a script,
with the same fault if it ends in one. Where there are reports, they are printed for any script that
can be scanned, with the reports of its scan, and none are left. -/
theorem dialogue_reports_at_prompt {s s' : Session} {lines opened rest : List String}
    (h : Prompts s lines opened rest s') (hs : s.reports = []) :
    dialogue lines s = dialogue rest s' ∧
    (s'.reports = [] ↔ Even (opened.takeWhile stumbles).length) ∧
    (∀ t t' lines₂ opened₂ rest₂, Prompts t lines₂ opened₂ rest₂ t' → t.reports = [] →
      Even (opened.takeWhile stumbles).length → Even (opened₂.takeWhile stumbles).length →
      ∀ word ∈ ["token", "ast"], ∀ path path₂ more more₂ source,
        (s'.folder.openScript path).2 = .ok source → (t'.folder.openScript path₂).2 = .ok source →
        ∃ text fault u u', perform "" (word :: path :: more) s' = ended fault u ∧
          u.output = s'.output ++ text ∧
          perform "" (word :: path₂ :: more₂) t' = ended fault u' ∧ u'.output = t'.output ++ text) ∧
    (¬ Even (opened.takeWhile stumbles).length →
      ∀ word ∈ ["run", "token", "ast"], ∀ path more source,
        (s'.folder.openScript path).2 = .ok source → (scan source).fault = none →
        ∃ u, perform "" (word :: path :: more) s' = .ok () u ∧ u.reports = [] ∧
          u.output =
            s'.output ++ Diagnostic.page (s'.reports ++ (scan source).scanner.reports)) := by
  refine ⟨h.dialogue_eq, h.reports_iff hs, ?_, ?_⟩
  · intro t t' lines₂ opened₂ rest₂ h₂ ht heven heven₂ word hword path path₂ more more₂ source
      hopen hopen₂
    obtain ⟨text, fault, hanswer⟩ := exists_answer_perform hword source
    obtain ⟨u, hend, houtput⟩ := hanswer s' path more ((h.reports_iff hs).mpr heven) hopen
    obtain ⟨u', hend', houtput'⟩ := hanswer t' path₂ more₂ ((h₂.reports_iff ht).mpr heven₂) hopen₂
    exact ⟨text, fault, u, u', hend, houtput, hend', houtput'⟩
  · intro hodd word hword path more source hopen hscan
    obtain ⟨c, hc, rfl⟩ : ∃ c ∈ ScriptCommand.all, c.word = word := List.mem_map.mp hword
    have hreports : s'.reports ≠ [] := fun hnil => hodd ((h.reports_iff hs).mp hnil)
    obtain ⟨u, hon, hend⟩ := c.on_of_earlier source hreports hopen hscan
    rw [ScriptCommand.perform_eq hc]
    exact ⟨u, onScript_of_ok hon, hend⟩

/-- A session with a script that is a single semicolon, and another one. -/
def semicolonSession : Session :=
  { folder := .ofFiles [("a", ";"), ("b", "x = 1\n")] }

/-- At first, and behind another prompt, the same is shown for the second script. Behind a look at the
semicolon there are reports. -/
theorem dialogue_over_semicolon :
    (∃ text fault u u', perform "" ["token", "b"] semicolonSession = ended fault u ∧
      u.output = semicolonSession.output ++ text ∧
      perform "" ["token", "b"] (asked semicolonSession []) = ended fault u' ∧
      u'.output = semicolonSession.output ++ prompt ++ text) ∧
    ∃ s', Prompts semicolonSession ["token a\n"] [";"] [] s' ∧ s'.reports ≠ [] := by
  constructor
  · have hopen : (semicolonSession.folder.openScript "b").2 = .ok "x = 1\n" := by
      with_unfolding_all rfl
    obtain ⟨-, -, hanswers, -⟩ :=
      dialogue_reports_at_prompt (.start : Prompts semicolonSession [] [] [] semicolonSession) rfl
    exact hanswers (asked semicolonSession []) _ [] [] [] .start rfl (by decide) (by decide)
      "token" List.mem_cons_self "b" "b" [] [] _ hopen hopen
  · have hgoes : result? (turn (lineText "token a\n") (asked semicolonSession [])) = some true := by
      decide +kernel
    cases hturn : turn (lineText "token a\n") (asked semicolonSession []) with
    | ok b s' =>
      rw [hturn] at hgoes
      obtain rfl : b = true := Option.some.inj hgoes
      have hopened : opened? semicolonSession (lineText "token a\n") = some ";" := by
        decide +kernel
      have hprompt : Prompts semicolonSession ["token a\n"] [";"] [] s' := by
        have hnext := Prompts.start.next hturn
        rwa [hopened] at hnext
      obtain ⟨-, hreports, -⟩ := dialogue_reports_at_prompt hprompt rfl
      refine ⟨s', hprompt, fun hnil => ?_⟩
      have heven := hreports.mp hnil
      revert heven
      decide +kernel
    | error f s' =>
      rw [hturn] at hgoes
      cases hgoes

/-- What was reported for the semicolon is still there when the dialogue ends. -/
theorem dialogue_keeps_reports :
    fault? (dialogue ["token a\n", "exit\n"] semicolonSession) = none ∧
    (lastState (dialogue ["token a\n", "exit\n"] semicolonSession)).reports =
      [.terminator .misplaced ⟨1, 0⟩] := by
  decide +kernel

end Scriptlet.Command
