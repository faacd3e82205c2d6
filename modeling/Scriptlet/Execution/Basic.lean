import Scriptlet.Diagnostic
import Scriptlet.Scope

/-! # Running

The state of a running program: the values in its scopes, the input that it has not read, what it
has written, and what was reported. Input is kept by lines, each with the line break that ends it,
so that what was not read is what the remaining lines say.
-/
namespace Scriptlet

/-- The lines of a text, each with its line break, where `line` is what has been read of the first
one, in reverse. -/
def linesFrom (line : List Char) : List Char → List String
  | [] => if line = [] then [] else [String.ofList line.reverse]
  | c :: rest =>
    if c = '\n' then String.ofList (c :: line).reverse :: linesFrom [] rest
    else linesFrom (c :: line) rest

/-- The lines of a text, each with its line break. -/
def inputLines (text : String) : List String :=
  linesFrom [] text.toList

/-- A line without its line break. -/
def lineText (line : String) : String :=
  match line.toList.reverse with
  | '\n' :: rest => String.ofList rest.reverse
  | _ => line

/-- The state of a running program. -/
structure Machine where
  /-- The scopes with their values. -/
  scopes : Scopes := {}
  /-- The lines of input that have not been read, each with its line break. -/
  input : List String := []
  /-- What has been written. -/
  output : String := ""
  /-- What has been reported. -/
  reports : List Diagnostic := []

/-- The input that has not been read. -/
def Machine.unread (m : Machine) : String :=
  String.join m.input

/-- A run: it gives a result or a fault, and the state it reached in either case. -/
abbrev Run := EStateM Fault Machine

namespace Run

/-- A result that does not depend on the state. -/
def ofExcept {α : Type} (e : Except Fault α) : Run α :=
  match e with
  | .ok a => pure a
  | .error fault => throw fault

/-- Writes a text. -/
def write (text : String) : Run Unit :=
  modify fun m => { m with output := m.output ++ text }

/-- Reports a problem and stops the run. -/
def stop {α : Type} (problem : Diagnostic) : Run α := do
  modify fun m => { m with reports := m.reports ++ [problem] }
  throw .stopped

end Run

end Scriptlet
