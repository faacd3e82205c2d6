import Scriptlet.Command.Session
import Scriptlet.Proofs.CheckSteps
import Scriptlet.Proofs.ReadingFaults

/-! # Commands on scripts

Three commands work on a script. They open it and read it, each as far as it needs to, and print and
drop what has been reported; if nothing has been reported, they do their work (`ScriptCommand`).

The reports that a command leaves behind are decided by the reading. What was reported before ends it
behind the scan, and is printed with the reports of the scan. Otherwise the script can make its
reader stumble (`Reading.stumbles`). This is taken for a command without a script: the use of the
command is shown, and the reports stay. In all other cases there are none afterwards, if the command
returns (`ScriptCommand.on_leaves`).
-/
namespace Scriptlet

/-- A script that cannot be opened is a matter of its path. -/
theorem Folder.openScript_ne_outOfRange {f : Folder} {path : String} :
    (f.openScript path).2 ≠ .error .outOfRange := by
  intro h
  rw [Folder.openScript] at h
  cases hmake : f.makeFolder (Path.ofText path).parent with
  | error fault =>
    rw [hmake] at h
    cases h
    rw [Folder.makeFolder] at hmake
    split at hmake
    · cases hmake
    · split at hmake <;> cases hmake
  | ok f' =>
    rw [hmake] at h
    dsimp only at h
    split at h
    · cases h
    · split at h <;> cases h

theorem Node.drawing_ne_outOfRange (n : Node) (σ : Scopes) :
    (n.drawing σ).2 ≠ some .outOfRange := by
  intro h
  unfold Node.drawing at h
  split at h
  · cases h
  · cases h
  · cases h
  · split at h <;> cases h

/-- The keeper of the reports has no such question to answer. -/
def Fault.noSuchQuestion : Fault :=
  .missingField "ErrorReporter" "has_error"

namespace Command

open Reading (stumbles)

/-! ## Commands that only print -/

/-- A command that ended in the state `s`, with a fault if there was one. -/
def ended (fault : Option Fault) (s : Session) : EStateM.Result Fault Session Unit :=
  match fault with
  | none => .ok () s
  | some f => .error f s

/-- Wherever it starts, the command prints `text`, ends with the given fault, if it is one, and
changes no reports. -/
def Prints (x : Command Unit) (text : String) (fault : Option Fault) : Prop :=
  ∀ s, ∃ s', x s = ended fault s' ∧ s'.output = s.output ++ text ∧ s'.reports = s.reports

theorem prints_pure : Prints (pure ()) "" none :=
  fun s => ⟨s, rfl, String.append_empty.symm, rfl⟩

theorem prints_throw (fault : Fault) : Prints (throw fault) "" (some fault) :=
  fun s => ⟨s, rfl, String.append_empty.symm, rfl⟩

theorem prints_output (text : String) :
    Prints (modify fun s => { s with output := s.output ++ text }) text none :=
  fun _ => ⟨_, rfl, rfl, rfl⟩

theorem prints_printLine (line : String) : Prints (printLine line) (line ++ "\n") none :=
  fun _ => ⟨_, rfl, String.append_assoc, rfl⟩

theorem Prints.bind {x : Command Unit} {y : Unit → Command Unit} {text text' : String}
    {fault : Option Fault} (hx : Prints x text none) (hy : Prints (y ()) text' fault) :
    Prints (x >>= y) (text ++ text') fault := by
  intro s
  obtain ⟨s₁, h₁, houtput₁, hreports₁⟩ := hx s
  obtain ⟨s₂, h₂, houtput₂, hreports₂⟩ := hy s₁
  refine ⟨s₂, (EStateM.bind_of_ok h₁).trans h₂, ?_, hreports₂.trans hreports₁⟩
  rw [houtput₂, houtput₁, String.append_assoc]

theorem exists_prints_forM : ∀ lines : List String, ∃ text, Prints (lines.forM printLine) text none
  | [] => ⟨_, prints_pure⟩
  | line :: lines => by
    obtain ⟨text, h⟩ := exists_prints_forM lines
    exact ⟨_, (prints_printLine line).bind h⟩

/-! ## Commands on a script -/

/-- The rest of a command on a script, behind its reading. -/
def examine (r : Reading) (work : Command Unit) : Command Unit := do
  if ← endsHere r then return
  work

theorem endsHere_eq (r : Reading) (s : Session) : endsHere r s =
    match r.fault with
    | some fault => .error fault { s with reports := r.reports }
    | none =>
      if r.reports.isEmpty then .ok false { s with reports := r.reports }
      else .ok true { s with output := s.output ++ Diagnostic.page r.reports, reports := [] } := by
  obtain ⟨stage, tokens, reports, fault, program⟩ := r
  cases fault with
  | some fault => rfl
  | none => cases reports <;> rfl

section examine

variable {r : Reading} {work : Command Unit}

theorem examine_of_fault {fault : Fault} (h : r.fault = some fault) (s : Session) :
    examine r work s = .error fault { s with reports := r.reports } := by
  refine EStateM.bind_of_error ?_
  rw [endsHere_eq, h]

theorem examine_of_reports (h : r.fault = none) (hreports : r.reports ≠ []) (s : Session) :
    examine r work s =
      .ok () { s with output := s.output ++ Diagnostic.page r.reports, reports := [] } := by
  have hends : endsHere r s =
      .ok true { s with output := s.output ++ Diagnostic.page r.reports, reports := [] } := by
    rw [endsHere_eq, h]
    exact if_neg fun hempty => hreports (List.isEmpty_iff.mp hempty)
  exact EStateM.bind_of_ok hends

theorem examine_of_clean (h : r.fault = none) (hreports : r.reports = []) (s : Session) :
    examine r work s = work { s with reports := [] } := by
  have hends : endsHere r s = .ok false { s with reports := [] } := by
    rw [endsHere_eq, h, hreports]
    rfl
  exact EStateM.bind_of_ok hends

end examine

/-- A command that was not stopped by the reading of its script ended well with no reports, or with
a fault that is not taken for a missing script. -/
def EndsClear : EStateM.Result Fault Session Unit → Prop
  | .ok _ s => s.reports = []
  | .error f _ => f ≠ .outOfRange

/-- **A command on a script**: how far the script is read, and what is done if nothing is
reported. What was reported before ends the reading behind the scan. Reading leaves the tokens only
if nothing was reported before and the script makes its reader stumble, and what is done afterwards
leaves no reports. -/
structure ScriptCommand where
  /-- The word of the command. -/
  word : String
  /-- How far the script is read. -/
  read : List Diagnostic → String → Reading
  /-- What is done with what was read. -/
  work : Reading → Command Unit
  read_of_earlier : ∀ {earlier source}, earlier ≠ [] →
    read earlier source = Reading.scan earlier source
  fault_iff : ∀ {earlier source}, (read earlier source).fault = some .outOfRange ↔
    earlier = [] ∧ stumbles source = true
  reports_ne_nil : ∀ {earlier source}, (read earlier source).fault = some .outOfRange →
    (read earlier source).reports ≠ []
  endsClear : ∀ {earlier source s}, (read earlier source).goesOn false = true → s.reports = [] →
    EndsClear (work (read earlier source) s)

theorem Prints.endsClear {x : Command Unit} {text : String} {fault : Option Fault}
    (h : Prints x text fault) (hfault : fault ≠ some .outOfRange) {s : Session}
    (hs : s.reports = []) : EndsClear (x s) := by
  obtain ⟨s', hx, -, hreports⟩ := h s
  rw [hx]
  cases fault with
  | none => exact hreports.trans hs
  | some f => exact fun hf => hfault (congrArg some hf)

/-- Prints the tokens. -/
def printTokens (r : Reading) : Command Unit := do
  printLine "Tokens of akon script\n"
  (tokenLines r.tokens).forM printLine

theorem exists_prints_printTokens (r : Reading) : ∃ text, Prints (printTokens r) text none := by
  obtain ⟨text, h⟩ := exists_prints_forM (tokenLines r.tokens)
  exact ⟨_, (prints_printLine _).bind h⟩

/-- Prints the drawing of the program. -/
def printDrawing (r : Reading) : Command Unit :=
  match r.program with
  | none => return
  | some (n, scopes) => do
    let (text, fault) := n.drawing scopes
    modify fun s => { s with output := s.output ++ text }
    match fault with
    | some fault => throw fault
    | none => return

theorem exists_prints_printDrawing (r : Reading) :
    ∃ text fault, fault ≠ some .outOfRange ∧ Prints (printDrawing r) text fault := by
  rw [printDrawing]
  cases r.program with
  | none => exact ⟨_, none, nofun, prints_pure⟩
  | some p =>
    obtain ⟨n, scopes⟩ := p
    have hfault := n.drawing_ne_outOfRange scopes
    show ∃ text fault, _ ∧ Prints (do
      modify fun s => { s with output := s.output ++ (n.drawing scopes).1 }
      match (n.drawing scopes).2 with
      | some fault => throw fault
      | none => return) text fault
    cases h : (n.drawing scopes).2 with
    | none => exact ⟨_, none, nofun, (prints_output _).bind prints_pure⟩
    | some f => exact ⟨_, some f, h ▸ hfault, (prints_output _).bind (prints_throw f)⟩

/-- Checks the program, and fails if the check ends well. -/
def checkThenFail (r : Reading) : Command Unit :=
  match r.program with
  | none => return
  | some (n, scopes) => do
    checkProgram n scopes
    throw .noSuchQuestion

theorem checkThenFail_of_ok {r : Reading} {n : Node} {σ : Scopes} {c : CheckState} {s : Session}
    (hprogram : r.program = some (n, σ)) (hs : s.reports = [])
    (hcheck : Check.program n ⟨σ, []⟩ = .ok () c) :
    checkThenFail r s = .error .noSuchQuestion { s with reports := c.reports } := by
  have hdone : checkProgram n σ s = .ok () { s with reports := c.reports } := by
    rw [checkProgram, hs, hcheck]
  rw [checkThenFail, hprogram]
  exact EStateM.bind_of_ok hdone

theorem checkThenFail_of_error {r : Reading} {n : Node} {σ : Scopes} {f : Fault} {c : CheckState}
    {s : Session} (hprogram : r.program = some (n, σ)) (hs : s.reports = [])
    (hcheck : Check.program n ⟨σ, []⟩ = .error f c) :
    checkThenFail r s = .error f { s with reports := c.reports } := by
  have hfails : checkProgram n σ s = .error f { s with reports := c.reports } := by
    rw [checkProgram, hs, hcheck]
  rw [checkThenFail, hprogram]
  exact EStateM.bind_of_error hfails

theorem endsClear_checkThenFail {earlier : List Diagnostic} {source : String} {s : Session}
    (h : (Reading.ofSource false earlier source).goesOn false = true) (hs : s.reports = []) :
    EndsClear (checkThenFail (Reading.ofSource false earlier source) s) := by
  obtain rfl := Reading.eq_nil_of_goesOn h
  cases hprogram : (Reading.ofSource false [] source).program with
  | none =>
    rw [checkThenFail, hprogram]
    exact hs
  | some p =>
    obtain ⟨n, σ⟩ := p
    have hread : (Reading.ofSource false [] source).program? false = some (n, σ) := by
      rw [Reading.program?, if_pos h, hprogram]
    obtain ⟨hclean, hslip⟩ := Check.concludes_of_isParsed (isParsed_of_source hread)
    by_cases hall : Check.AllClean (.block n, ⟨σ, []⟩)
    · obtain ⟨c, hc, -⟩ := hclean hall
      rw [checkThenFail_of_ok hprogram hs hc]
      intro hrange
      cases hrange
    · obtain ⟨f, c, hf, hslips⟩ := hslip hall
      rw [checkThenFail_of_error hprogram hs hf]
      intro hrange
      rw [hrange] at hslips
      cases hslips

namespace ScriptCommand

/-- The command that shows the tokens. -/
def showing : ScriptCommand where
  word := "token"
  read := Reading.ofTokens false
  work := printTokens
  read_of_earlier := Reading.ofTokens_of_earlier
  fault_iff := Reading.fault_ofTokens_iff
  reports_ne_nil := Reading.reports_ofTokens_ne_nil
  endsClear _ hs := by
    obtain ⟨text, h⟩ := exists_prints_printTokens _
    exact h.endsClear nofun hs

/-- The command that draws the program. -/
def drawing : ScriptCommand where
  word := "ast"
  read := Reading.ofSource false
  work := printDrawing
  read_of_earlier := Reading.ofSource_of_earlier
  fault_iff := Reading.fault_ofSource_iff
  reports_ne_nil := Reading.reports_ofSource_ne_nil
  endsClear _ hs := by
    obtain ⟨text, fault, hfault, h⟩ := exists_prints_printDrawing _
    exact h.endsClear hfault hs

/-- The command that is to run the program. -/
def running : ScriptCommand where
  word := "run"
  read := Reading.ofSource false
  work := checkThenFail
  read_of_earlier := Reading.ofSource_of_earlier
  fault_iff := Reading.fault_ofSource_iff
  reports_ne_nil := Reading.reports_ofSource_ne_nil
  endsClear := endsClear_checkThenFail

/-- All commands on scripts. -/
def all : List ScriptCommand :=
  [running, showing, drawing]

/-- Performs the command on the script at a path. -/
def on (c : ScriptCommand) (path : String) : Command Unit := do
  let source ← openScript path
  let r := c.read (← get).reports source
  examine r (c.work r)

theorem perform_eq {c : ScriptCommand} (h : c ∈ all) (lead : String) (rest : List String) :
    perform lead (c.word :: rest) = onScript lead c.word rest c.on := by
  simp only [all, List.mem_cons, List.not_mem_nil, or_false] at h
  rcases h with rfl | rfl | rfl <;> rfl

variable (c : ScriptCommand) {path source : String} {s : Session}

theorem on_of_ok (h : (s.folder.openScript path).2 = .ok source) :
    c.on path s = examine (c.read s.reports source) (c.work (c.read s.reports source))
      { s with folder := (s.folder.openScript path).1 } := by
  have hopen : openScript path s =
      .ok source { s with folder := (s.folder.openScript path).1 } := by
    refine (EStateM.bind_of_ok (EStateM.get_apply s)).trans ?_
    simp only [h]
    rfl
  exact EStateM.bind_of_ok hopen

theorem on_of_error {fault : Fault} (h : (s.folder.openScript path).2 = .error fault) :
    c.on path s = .error fault { s with folder := (s.folder.openScript path).1 } := by
  have hopen : openScript path s =
      .error fault { s with folder := (s.folder.openScript path).1 } := by
    refine (EStateM.bind_of_ok (EStateM.get_apply s)).trans ?_
    simp only [h]
    rfl
  exact EStateM.bind_of_error hopen

/-- **How a command on a script leaves the reports**: it ends well with none, or it leaves the
tokens, and then there are some. -/
theorem on_leaves (h : (s.folder.openScript path).2 = .ok source) :
    match c.on path s with
    | .ok _ s' => ¬(s.reports = [] ∧ stumbles source = true) ∧ s'.reports = []
    | .error f s' => f = .outOfRange →
      (s.reports = [] ∧ stumbles source = true) ∧ s'.reports ≠ [] := by
  rw [c.on_of_ok h, ← c.fault_iff]
  cases hfault : (c.read s.reports source).fault with
  | some f =>
    rw [examine_of_fault hfault]
    rintro rfl
    exact ⟨rfl, c.reports_ne_nil hfault⟩
  | none =>
    by_cases hreports : (c.read s.reports source).reports = []
    · rw [examine_of_clean hfault hreports]
      -- the work starts without reports, and leaves none
      have hclear := c.endsClear (Reading.goesOn_iff.mpr ⟨hfault, hreports⟩)
        (s := { s with folder := (s.folder.openScript path).1, reports := [] }) rfl
      revert hclear
      cases c.work (c.read s.reports source)
        { s with folder := (s.folder.openScript path).1, reports := [] } with
      | ok _ s' => exact fun hclear => ⟨nofun, hclear⟩
      | error f s' => exact fun hclear hf => absurd hf hclear
    · rw [examine_of_reports hfault hreports]
      exact ⟨nofun, rfl⟩

end ScriptCommand

/-! ## The use of a command -/

section onScript

variable {lead word path : String} {more : List String} {command : String → Command Unit}
  {s s' : Session}

theorem onScript_of_ok (h : command path s = .ok () s') :
    onScript lead word (path :: more) command s = .ok () s' := by
  simp only [onScript, h]

theorem onScript_of_error {f : Fault} (h : command path s = .error f s') (hf : f ≠ .outOfRange) :
    onScript lead word (path :: more) command s = .error f s' := by
  simp only [onScript, h]
  split
  · rename_i heq
    cases heq
    exact absurd rfl hf
  · rfl

theorem onScript_of_outOfRange (h : command path s = .error .outOfRange s') :
    onScript lead word (path :: more) command s =
      printLine s!"Usage: {lead}{word} [rute script akon]" s' := by
  simp only [onScript, h]

end onScript

/-- A command on a script that returns. -/
theorem reports_of_onScript {c : ScriptCommand} {lead path : String} {more : List String}
    {s s' : Session} (h : onScript lead c.word (path :: more) c.on s = .ok () s') :
    ∃ source, (s.folder.openScript path).2 = .ok source ∧
      (s'.reports = [] ↔ ¬(s.reports = [] ∧ stumbles source = true)) := by
  cases hopen : (s.folder.openScript path).2 with
  | error f =>
    have hf : f ≠ .outOfRange := by
      rintro rfl
      exact Folder.openScript_ne_outOfRange hopen
    cases (onScript_of_error (c.on_of_error hopen) hf).symm.trans h
  | ok source =>
    refine ⟨source, rfl, ?_⟩
    have hleaves := c.on_leaves hopen
    cases hon : c.on path s with
    | ok _ s₁ =>
      rw [hon] at hleaves
      cases (onScript_of_ok hon).symm.trans h
      exact ⟨fun _ => hleaves.1, fun _ => hleaves.2⟩
    | error f s₁ =>
      rw [hon] at hleaves
      by_cases hf : f = .outOfRange
      · subst hf
        obtain ⟨hstumbles, hreports⟩ := hleaves rfl
        cases (onScript_of_outOfRange hon).symm.trans h
        exact ⟨fun hnil => absurd hnil hreports, fun hnot => absurd hstumbles hnot⟩
      · cases (onScript_of_error hon hf).symm.trans h

/-! ## What is printed -/

namespace ScriptCommand

variable (c : ScriptCommand) (source : String)

/-- Where nothing was reported before, what a command prints depends on its script alone. -/
theorem exists_answer (hwork : ∀ r, ∃ text fault, Prints (c.work r) text fault) :
    ∃ text fault, ∀ s path, s.reports = [] → (s.folder.openScript path).2 = .ok source →
      ∃ s', c.on path s = ended fault s' ∧ s'.output = s.output ++ text := by
  cases hfault : (c.read [] source).fault with
  | some f =>
    refine ⟨"", some f, fun s path hs hopen => ?_⟩
    rw [c.on_of_ok hopen, hs, examine_of_fault hfault]
    exact ⟨_, rfl, String.append_empty.symm⟩
  | none =>
    by_cases hreports : (c.read [] source).reports = []
    · obtain ⟨text, fault, hprints⟩ := hwork (c.read [] source)
      refine ⟨text, fault, fun s path hs hopen => ?_⟩
      rw [c.on_of_ok hopen, hs, examine_of_clean hfault hreports]
      obtain ⟨s', hend, houtput, -⟩ :=
        hprints { s with folder := (s.folder.openScript path).1, reports := [] }
      exact ⟨s', hend, houtput⟩
    · refine ⟨Diagnostic.page (c.read [] source).reports, none, fun s path hs hopen => ?_⟩
      rw [c.on_of_ok hopen, hs, examine_of_reports hfault hreports]
      exact ⟨_, rfl, rfl⟩

/-- The same where an index out of range shows the use of the command. -/
theorem exists_answer_onScript (hwork : ∀ r, ∃ text fault, Prints (c.work r) text fault)
    (lead : String) :
    ∃ text fault, ∀ s path more, s.reports = [] → (s.folder.openScript path).2 = .ok source →
      ∃ s', onScript lead c.word (path :: more) c.on s = ended fault s' ∧
        s'.output = s.output ++ text := by
  obtain ⟨text, fault, hanswer⟩ := c.exists_answer source hwork
  by_cases hfault : fault = some .outOfRange
  · -- the line that shows the use of the command comes behind all else
    subst hfault
    refine ⟨text ++ (s!"Usage: {lead}{c.word} [rute script akon]" ++ "\n"), none,
      fun s path more hs hopen => ?_⟩
    obtain ⟨s₁, hon, houtput⟩ := hanswer s path hs hopen
    obtain ⟨s', hend, houtput', -⟩ :=
      prints_printLine s!"Usage: {lead}{c.word} [rute script akon]" s₁
    refine ⟨s', (onScript_of_outOfRange hon).trans hend, ?_⟩
    rw [houtput', houtput, String.append_assoc]
  · refine ⟨text, fault, fun s path more hs hopen => ?_⟩
    obtain ⟨s₁, hon, houtput⟩ := hanswer s path hs hopen
    refine ⟨s₁, ?_, houtput⟩
    cases fault with
    | none => exact onScript_of_ok hon
    | some f => exact onScript_of_error hon fun hf => hfault (congrArg some hf)

/-- Where something was reported before, it is printed with the reports of the scan, and the rest of
the script does not matter. -/
theorem on_of_earlier {s : Session} {path : String} (hs : s.reports ≠ [])
    (hopen : (s.folder.openScript path).2 = .ok source) (hscan : (scan source).fault = none) :
    ∃ s', c.on path s = .ok () s' ∧ s'.reports = [] ∧
      s'.output = s.output ++ Diagnostic.page (s.reports ++ (scan source).scanner.reports) := by
  have hreports : (Reading.scan s.reports source).reports ≠ [] := fun hnil =>
    hs (List.append_eq_nil_iff.mp hnil).1
  rw [c.on_of_ok hopen, c.read_of_earlier hs, examine_of_reports hscan hreports]
  exact ⟨_, rfl, rfl, rfl⟩

end ScriptCommand

end Command

end Scriptlet
