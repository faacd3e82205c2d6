import Scriptlet.Command.Session
import Scriptlet.Node.Show
import Scriptlet.Workload.Program

/-! # Workloads: showing

Statements that are shown, a program that is drawn and a scope that is listed; and a series of
commands, on the command line and in a dialogue. The statements, the listed scope, the scripts other
than the sample program and the commands are made up to fit known counts.
-/
namespace Scriptlet.Workload

/-- Statements that are shown, with a number in them. -/
def statementLines (i : Nat) : List String :=
  [s!"v{i} = v{i} + {i}",
    s!"while v{i} < {i} \x7b \x7d",
    s!"f(v{i}, {i})",
    "done = a < b and not (c == d)",
    "e = up + 1"]

/-- How many characters the statements of a program are shown with. -/
def shownLength (source : String) : Nat :=
  match (Reading.ofSource true [] source).program with
  | some (.program ss _, _) =>
    total (ss.map fun n => match n.shown with
      | .ok text => text.length
      | .error _ => 0)
  | _ => 0

/-- A scope that can be listed. -/
def listedScope : Scopes :=
  (({} : Scopes).define Scopes.root "a"
    (.record [("type", .str "int"), ("mutable", .bool true)])).define Scopes.root "b"
    (.record [("type", .str "float"), ("mutable", .bool false)])

/-- How many characters a program is drawn with. -/
def drawnLength (source : String) : Nat :=
  match (Reading.ofSource true [] source).program with
  | some (n, scopes) => (n.drawing scopes).1.length
  | none => 0

/-- Showing: the characters of `n` groups of statements, and those of a drawing and a listing. -/
def showing (n : Nat) : Nat × Nat :=
  (total ((List.range n).map fun i => shownLength (ofLines (statementLines i))),
    drawnLength (program 5) + (listedScope.listing Scopes.root).1.length)

/-- The scripts that the commands work on. -/
def scripts : List (String × String) :=
  [("good", program 20), ("strange", "@"), ("doubled", ";;"), ("mixed", "x = 1; y = 2\n\n"),
    ("loose", "x 5\n"), ("open", "if true\n")]

/-- The command lines of one round. -/
def commandLines : List (List String) :=
  [["akorn", "version"], ["akorn", "help"], ["akorn", "token", "good"], ["akorn", "ast", "good"],
    ["akorn", "run"], ["akorn", "token"], ["akorn", "ast"],
    ["akorn", "run", "strange"], ["akorn", "run", "doubled"], ["akorn", "run", "loose"],
    ["akorn", "token", "strange"], ["akorn", "token", "doubled"],
    ["akorn", "ast", "strange"], ["akorn", "ast", "doubled"], ["akorn", "ast", "loose"],
    ["akorn", "repl"]]

/-- The lines of the dialogue in one round. -/
def dialogueLines : List String :=
  ["version\n", "help\n", "token good\n", "ast good\n", "run\n", "token\n", "ast\n",
    "ast mixed\n", "ast doubled\n", "ast open\n", "exit\n"]

/-- Performs command lines one after the other. A fault ends only the command in which it arises. -/
def performAll : List (List String) → Session → Session
  | [], s => s
  | line :: rest, s =>
    match Command.commandLine line s with
    | .ok _ s => performAll rest s
    | .error _ s => performAll rest s

/-- Rounds of commands, after the command line was used without a command once: how many characters
were printed. -/
def commands (n : Nat) : Nat :=
  let lines := (List.replicate n commandLines).flatten
  let start : Session :=
    { folder := Folder.ofFiles scripts, input := (List.replicate n dialogueLines).flatten }
  if n = 0 then 0 else (performAll ([] :: lines) start).output.length

end Scriptlet.Workload
