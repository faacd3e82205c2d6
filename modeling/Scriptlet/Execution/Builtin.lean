import Scriptlet.Decimal.Reading
import Scriptlet.Execution.Basic
import Scriptlet.Value.Compare

/-! # Built-in functions

Two functions write values, four read a line of input. A number is read by asking, with the same
prompt, until a line is one; a truth value by asking until a line is one of two given answers.
-/
namespace Scriptlet.Run

/-- What is made of a line of input: a value, nothing if another line is needed, or a fault. -/
abbrev Answer := Except Fault (Option Value)

/-- Asks with the prompt for the first of the given lines, then for the next one, until one gives a
value. -/
def awaitFrom (prompt : String) (answer : String → Answer) :
    List String → Machine → EStateM.Result Fault Machine Value
  | [], m => .error .endOfInput { m with input := [], output := m.output ++ prompt }
  | line :: rest, m =>
    let m := { m with input := rest, output := m.output ++ prompt }
    match answer (lineText line) with
    | .ok (some value) => .ok value m
    | .ok none => awaitFrom prompt answer rest m
    | .error fault => .error fault m

/-- Asks with the prompt until a line of input gives a value. -/
def await (prompt : String) (answer : String → Answer) : Run Value := fun m =>
  awaitFrom prompt answer m.input m

/-- The prompt that the arguments of a reading function make: at most one value. -/
def promptText : List Value → Except Fault String
  | [] => .ok ""
  | [v] => .ok v.text
  | vs => .error (.promptCount vs.length)

/-- Reads a line that the given function accepts. -/
def readBy (answer : String → Option Value) (arguments : List Value) : Run Value := do
  let prompt ← ofExcept (promptText arguments)
  await prompt fun line => .ok (answer line)

/-- What is made of a line when the answers for true and false are the second and third
argument. -/
def boolAnswer (arguments : List Value) (line : String) : Answer :=
  match arguments[1]? with
  | none => .error .outOfRange
  | some yes =>
    if (Value.str line).equals yes then .ok (some (.bool true))
    else
      match arguments[2]? with
      | none => .error .outOfRange
      | some no => if (Value.str line).equals no then .ok (some (.bool false)) else .ok none

/-- Reads a truth value: the first argument is the prompt. -/
def readBool (arguments : List Value) : Run Value := do
  match arguments with
  | [] => throw .outOfRange
  | prompt :: _ => await prompt.text (boolAnswer arguments)

/-- Values as they are written, with blanks between them. -/
def valuesText (values : List Value) : String :=
  " ".intercalate (values.map Value.text)

/-- Calls a built-in function. -/
def builtin (name : String) (arguments : List Value) : Run Value := do
  match name with
  | "write" =>
    write (valuesText arguments)
    return .absent
  | "writeline" =>
    write (valuesText arguments ++ "\n")
    return .absent
  | "readInt" => readBy (fun line => (Decimal.readInteger? line).map .int) arguments
  | "readFloat" => readBy (fun line => (Decimal.readFloat? line).map .float) arguments
  | "readString" => readBy (fun line => some (.str line)) arguments
  | "readBool" => readBool arguments
  | _ => throw (.unknownBuiltin name)

end Scriptlet.Run
