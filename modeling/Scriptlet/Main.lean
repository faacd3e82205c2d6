import Scriptlet.Command.Session

/-! # The program

The outer layer: it takes scripts and lines from outside, performs the commands, and prints. What
a command does is decided by `Command`.
-/
namespace Scriptlet.Console

/-- The script that a command works on. -/
def scriptOf : List String → Option String
  | word :: path :: _ => if ["run", "token", "ast"].contains word then some path else none
  | _ => none

/-- The text of a script, which is made if it does not exist; none if it cannot be read. -/
def readScript (p : Path) : IO (Option String) := do
  try
    IO.FS.createDirAll p.parent.text
    let _ ← IO.FS.Handle.mk p.text .append
    let content ← IO.FS.readFile p.text
    return some content
  catch _ => return none

/-- The folder with the script that the words of a command name. A script that cannot be read is one
that no command can open. -/
def folderFor (words : List String) : IO Folder := do
  match scriptOf words with
  | none => return {}
  | some path =>
    let p := Path.ofText path
    match ← readScript p with
    | some content => return Folder.ofFiles [(path, content)]
    | none => return { folders := [p.place] }

/-- Reads and performs commands until the dialogue ends. -/
partial def converse (reports : List Diagnostic) : IO Unit := do
  let input ← IO.getStdin
  let output ← IO.getStdout
  output.putStr Command.prompt
  output.flush
  let line ← input.getLine
  if line.isEmpty then
    output.putStr (Diagnostic.page reports)
  else
    let text := lineText line
    let folder ← folderFor (Command.words text)
    match Command.turn text { folder := folder, reports := reports } with
    | .ok goesOn s =>
      output.putStr s.output
      output.flush
      if goesOn then converse s.reports
    | .error _ s => output.putStr (s.output ++ Diagnostic.page s.reports)

end Scriptlet.Console

/-- Performs the command line. -/
def main (arguments : List String) : IO Unit := do
  match arguments with
  | "akorn" :: "repl" :: _ => Scriptlet.Console.converse []
  | _ =>
    let folder ← Scriptlet.Console.folderFor (arguments.drop 1)
    let s := Scriptlet.Command.guarded arguments { folder := folder }
    (← IO.getStdout).putStr s.output
