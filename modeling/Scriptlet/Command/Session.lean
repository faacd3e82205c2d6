import Scriptlet.Command.Folder
import Scriptlet.Execution.Basic
import Scriptlet.Node.Outline
import Scriptlet.Source
import Scriptlet.Typing.Program

/-! # Commands

Commands work on scripts: they show the tokens of one, draw its program, or run it. They are given
one at a time on the command line, or one after the other in a dialogue. Reports are kept from
command to command until they are printed, and a command that finds reports stops and prints them.

The command that runs a script never gets further than the check of its types. What it asks for
afterwards is a fault.
-/
namespace Scriptlet

/-- What the commands work on. -/
structure Session where
  /-- The scripts. -/
  folder : Folder := {}
  /-- The lines of input that have not been read, each with its line break. -/
  input : List String := []
  /-- What has been printed. -/
  output : String := ""
  /-- What has been reported and not been printed. -/
  reports : List Diagnostic := []
deriving Inhabited

/-- The input that has not been read. -/
def Session.unread (s : Session) : String :=
  String.join s.input

/-- A command: it ends well or with a fault, and with the state it reached in either case. -/
abbrev Command := EStateM Fault Session

namespace Command

/-- Prints a line. -/
def printLine (text : String) : Command Unit :=
  modify fun s => { s with output := s.output ++ text ++ "\n" }

/-- Prints what has been reported. -/
def printReports : Command Unit :=
  modify fun s => { s with output := s.output ++ Diagnostic.page s.reports }

/-- Opens a script. -/
def openScript (path : String) : Command String := do
  let s ← get
  let (folder, content) := s.folder.openScript path
  set { s with folder := folder }
  match content with
  | .ok text => return text
  | .error fault => throw fault

/-- Takes over what a reading reported. If there are reports they are printed and dropped, and the
answer is that the command ends here. -/
def endsHere (r : Reading) : Command Bool := do
  modify fun s => { s with reports := r.reports }
  match r.fault with
  | some fault => throw fault
  | none =>
    if r.reports.isEmpty then return false
    printReports
    modify fun s => { s with reports := [] }
    return true

/-- The numbered tokens, a line each. -/
def tokenLines (tokens : List Token) : List String :=
  tokens.zipIdx.map fun (t, i) => s!"{i} => {t.describe}"

/-- Shows the tokens of a script. -/
def showTokens (path : String) : Command Unit := do
  let source ← openScript path
  let r := Reading.ofTokens false (← get).reports source
  if ← endsHere r then return
  printLine "Tokens of akon script\n"
  (tokenLines r.tokens).forM printLine

/-- Draws the program of a script. -/
def drawProgram (path : String) : Command Unit := do
  let source ← openScript path
  let r := Reading.ofSource false (← get).reports source
  if ← endsHere r then return
  match r.program with
  | none => return
  | some (n, scopes) =>
    let (text, fault) := n.drawing scopes
    modify fun s => { s with output := s.output ++ text }
    match fault with
    | some fault => throw fault
    | none => return

/-- Checks the types of a program. -/
def checkProgram (n : Node) (scopes : Scopes) : Command Unit := fun s =>
  match Check.program n { scopes := scopes, reports := s.reports } with
  | .ok _ c => .ok () { s with reports := c.reports }
  | .error fault c => .error fault { s with reports := c.reports }

/-- Reads a script and checks its types, which ends in a fault if there was nothing to report. -/
def runScript (path : String) : Command Unit := do
  let source ← openScript path
  let r := Reading.ofSource false (← get).reports source
  if ← endsHere r then return
  match r.program with
  | none => return
  | some (n, scopes) =>
    checkProgram n scopes
    throw (.missingField "ErrorReporter" "has_error")

/-- Performs a command on a script. If the script is not named, or an index is out of range on the
way, the use of the command is shown. -/
def onScript (lead word : String) (arguments : List String) (command : String → Command Unit) :
    Command Unit := fun s =>
  let usage := printLine s!"Usage: {lead}{word} [rute script akon]"
  match arguments with
  | [] => usage s
  | path :: _ =>
    match command path s with
    | .error .outOfRange s => usage s
    | result => result

/-- The lines that explain the commands. -/
def helpLines : List String :=
  ["--Akon-Cli Commands--\n\n",
    "-ast: Command that executes an akon script and displays its parent node, "
      ++ "syntax: akon ast [path to akon script]\n",
    "-exit: Command that exits the akon repl, syntax: akon repl, can only be done in the repl\n",
    "-help: displays all akon-cli commands with their function and syntax, syntax: akon help\n",
    "-repl: activates the interactive mode of the akon programming language, "
      ++ "syntax: akon repl\n",
    "-run: Command that fully executes an akon script, "
      ++ "syntax: akon run [path to akon script]\n",
    "-token: Command that executes an akon script up to the lexer and displays the created "
      ++ "tokens, syntax: akon token [path to akon script]\n",
    "-version: displays the current language version, syntax: akon version\n"]

/-- Performs the command that the words name; what names none does nothing. `lead` is what stands
before the commands when their use is shown. -/
def perform (lead : String) : List String → Command Unit
  | "run" :: rest => onScript lead "run" rest runScript
  | "token" :: rest => onScript lead "token" rest showTokens
  | "ast" :: rest => onScript lead "ast" rest drawProgram
  | "version" :: _ => printLine "--Akon Programming Language: v0.1.0--"
  | "help" :: _ => helpLines.forM printLine
  | _ => return

/-- The words of a line, divided by single blanks. -/
def words (line : String) : List String :=
  Text.parts ' ' line

/-- What is shown before a line of a dialogue is read. -/
def prompt : String := ">> "

/-- Performs the command on a line of a dialogue, and answers whether the dialogue goes on. -/
def turn (line : String) : Command Bool := do
  match words line with
  | "exit" :: _ => return false
  | ws =>
    perform "" ws
    return true

/-- A dialogue over the given lines of input. -/
def dialogue : List String → Command Unit
  | [] => do
    modify fun s => { s with input := [], output := s.output ++ prompt }
    throw .endOfInput
  | line :: rest => do
    modify fun s => { s with input := rest, output := s.output ++ prompt }
    if ← turn (lineText line) then dialogue rest

/-- **The command line.** It starts with the name of the language. -/
def commandLine : List String → Command Unit
  | "akorn" :: arguments =>
    match arguments with
    | [] => throw .outOfRange
    | "repl" :: _ => fun s => dialogue s.input s
    | _ => perform "akorn " arguments
  | _ => printLine "Usage: akorn [commands]"

/-- The command line where no fault is let through: it ends with what has been reported. -/
def guarded (arguments : List String) (s : Session) : Session :=
  match commandLine arguments s with
  | .ok _ s => s
  | .error _ s => { s with output := s.output ++ Diagnostic.page s.reports }

end Command

end Scriptlet
