import Scriptlet.Execution.Statement
import Scriptlet.Workload.Program

/-! # Workloads: running

A program with two loops, programs whose mistakes are reported when they run, and rounds of calls of
all built-in functions. The programs and the calls are made up to fit known results.
-/
namespace Scriptlet.Workload

/-- A program that counts to `n` in one loop and leaves the other at once. -/
def loopLines : List String :=
  ["while i < n \x7b", "    if i % 5 == 0 \x7b", "        total += 1", "        i += 1",
    "        continue", "    \x7d", "    total += 2", "    i += 1", "\x7d", "loop \x7b", "    break",
    "\x7d"]

/-- The values that the variables of the program start with. -/
def loopVariables (n : Nat) : Bindings :=
  [("n", .int n), ("i", .int 0), ("total", .int 0)]

/-- Programs that stop with a report. -/
def stoppingTexts : List String :=
  ["i = 1 / 0\n", "i = 1 % 0\n", "i = not 1\n"]

/-- What a program leaves that is run, without being checked, with variables of the given
values. -/
def ranWith (values : Bindings) (source : String) : Machine :=
  match (Reading.ofSource true [] source).program with
  | none => {}
  | some (node, scopes) =>
    let start := values.foldl (fun s (x, v) => s.define Scopes.root x v) scopes
    match Run.program Run.ampleBudget node { scopes := start } with
    | .ok _ m => m
    | .error _ m => m

/-- Running the loops: the values of the sum and of the counter at the end. With them, the number of
reports of the programs that stop. -/
def running (n : Nat) : List Value × Nat :=
  let m := ranWith (loopVariables n) (ofLines loopLines)
  (["total", "i"].map fun x => (m.scopes.get? Scopes.root x).getD .absent,
    total (stoppingTexts.map fun text => (ranWith [("i", .int 0)] text).reports.length))

/-- The calls of one round, of which the last four read. -/
def calls : List (String × List Value) :=
  [("write", [.str "a", .int 1]), ("writeline", [.float 2.5, .bool true]),
    ("readInt", [.str "whole? "]), ("readFloat", [.str "number? "]), ("readString", [.str "> "]),
    ("readBool", [.str "sure? ", .str "yes", .str "no"])]

/-- The input that one round reads. Some of the answers are refused, so that they are asked for
again. -/
def answers : List String :=
  ["seven\n", "7\n", "x\n", "1.5\n", "hello\n", "maybe\n", "no\n"]

/-- Calls the built-in functions one after the other, and gives their results. -/
def callAll (calls : List (String × List Value)) : Run (List Value) :=
  calls.mapM fun (name, arguments) => Run.builtin name arguments

/-- Rounds of calls: their number, and what was read in the last round. -/
def builtins (n : Nat) : Nat × List Value :=
  let all := (List.replicate n calls).flatten
  match callAll all { input := (List.replicate n answers).flatten } with
  | .ok results _ => (results.length, results.drop (results.length - 4))
  | .error _ _ => (0, [])

end Scriptlet.Workload
