import Scriptlet.Text.Quoted

/-! # Faults

A fault ends whatever was going on: scanning, parsing, checking or running. It is not a reported
problem of the program (those are diagnostics, and work continues after them) but a situation for
which no rule is given: a field read from a node that has none, an operator applied to values it
is not defined on, input that has run out. Every fault is a cause; `Fault.message` is its wording.
-/
namespace Scriptlet

/-- What can be wrong when a value is written by a format text. -/
inductive FormatFault where
  /-- The format asks for more values than there are. -/
  | tooFewValues
  /-- The value was not used. -/
  | tooManyValues
  /-- The format ends inside a directive. -/
  | incomplete
  /-- The format ends inside the name of a field. -/
  | incompleteKey
  /-- A field is named, but the value has no fields. -/
  | noFields
  /-- The value has no field of that name. -/
  | missingKey (name : String)
  /-- No directive has this letter; `index` is where it stands. -/
  | unsupported (letter : Char) (index : Nat)
  /-- A number is to be written, and the value is none. -/
  | realRequired (letter : Char) (kind : String)
  /-- An integer is to be written, and the value is none. -/
  | integerRequired (letter : Char) (kind : String)
  /-- A floating-point number is to be written, and the value is none. -/
  | floatRequired (kind : String)
  /-- A character is to be written, and the value is neither one nor the code of one. -/
  | characterRequired
  /-- The code of a character is out of range. -/
  | characterRange
  /-- The value that gives a width or precision is no integer. -/
  | sizeRequired
  /-- A written width is too large. -/
  | hugeWidth
  /-- A written precision is too large. -/
  | hugePrecision
  /-- A width that is given by a value does not fit into a machine word. -/
  | widthOverflow
  /-- A precision that is given by a value does not fit into half a machine word. -/
  | precisionOverflow
  /-- Infinity is no integer. -/
  | infinite
  /-- The undefined number is no integer. -/
  | undefinedNumber
deriving DecidableEq, Repr

/-- What can be wrong with the path of a script. -/
inductive PathFault where
  /-- The path names a directory. -/
  | isDirectory
  /-- A directory is needed where a file stands. -/
  | fileExists
  /-- The path goes on behind a file. -/
  | notDirectory
deriving DecidableEq, Repr

/-- The cause of a failure. -/
inductive Fault where
  /-- A node or value of kind `owner` has no field of that name. -/
  | missingField (owner field : String)
  /-- A local result was used before it was set. -/
  | unassigned (name : String)
  /-- A position outside of a sequence. -/
  | outOfRange
  /-- A call of a function that is not built in. -/
  | unknownBuiltin (name : String)
  /-- A name that means nothing. -/
  | undefinedName (name : String)
  /-- The run was stopped; the reason is the last diagnostic. -/
  | stopped
  /-- There is no further line of input. -/
  | endOfInput
  /-- The text is no integer. -/
  | badInteger (text : String)
  /-- The text is no floating-point number. -/
  | badFloat (text : String)
  /-- The operator is not defined on values of these kinds. -/
  | operands (operator left right : String)
  /-- A text can be joined only with a text. -/
  | concatenation (right : String)
  /-- A text can be repeated only a whole number of times. -/
  | repetition (count : String)
  /-- The number of repetitions does not fit into a machine word. -/
  | hugeRepetition
  /-- The repeated text would be too long. -/
  | longRepetition
  /-- Values of these kinds have no order. -/
  | unordered (operator left right : String)
  /-- The sign is not defined on values of this kind. -/
  | signOperand (operator kind : String)
  /-- Zero has no negative power. -/
  | zeroToNegativePower
  /-- Zero has no negative or complex power among the complex numbers. -/
  | complexZeroPower
  /-- A power is too large for a floating-point number. -/
  | powerOverflow
  /-- A complex power is too large. -/
  | complexPowerOverflow
  /-- An integer is too large for a floating-point number. -/
  | integerTooLarge
  /-- A value cannot be written by a format text. -/
  | format (cause : FormatFault)
  /-- A prompt consists of at most one value. -/
  | promptCount (count : Nat)
  /-- Nodes of this kind cannot be shown. -/
  | unshowable (kind : String)
  /-- Nodes of this kind can be shown only one by one. -/
  | unshowableKind (kind : String)
  /-- The value has no parts that could be listed. -/
  | noParts
  /-- A script cannot be opened. -/
  | path (cause : PathFault) (path : String)
  /-- The step budget ran out. No program ends so by itself: the run was cut off. -/
  | exhausted
deriving DecidableEq, Repr

/-- The wording of a format fault. -/
def FormatFault.message : FormatFault → String
  | tooFewValues => "not enough arguments for format string"
  | tooManyValues => "not all arguments converted during string formatting"
  | incomplete => "incomplete format"
  | incompleteKey => "incomplete format key"
  | noFields => "format requires a mapping"
  | missingKey name => Text.quoted name
  | unsupported letter index =>
    let shown := if 31 ≤ letter.toNat ∧ letter.toNat ≤ 126 then letter else '?'
    let code := String.ofList (Nat.toDigits 16 letter.toNat)
    s!"unsupported format character '{shown}' (0x{code}) at index {index}"
  | realRequired letter kind => s!"%{letter} format: a real number is required, not {kind}"
  | integerRequired letter kind => s!"%{letter} format: an integer is required, not {kind}"
  | floatRequired kind => s!"must be real number, not {kind}"
  | characterRequired => "%c requires int or char"
  | characterRange => "%c arg not in range(0x110000)"
  | sizeRequired => "* wants int"
  | hugeWidth => "width too big"
  | hugePrecision => "precision too big"
  | widthOverflow => "Python int too large to convert to C ssize_t"
  | precisionOverflow => "Python int too large to convert to C int"
  | infinite => "cannot convert float infinity to integer"
  | undefinedNumber => "cannot convert float NaN to integer"

/-- The wording of a path fault. -/
def PathFault.message : PathFault → String
  | isDirectory => "[Errno 21] Is a directory"
  | fileExists => "[Errno 17] File exists"
  | notDirectory => "[Errno 20] Not a directory"

/-- The wording of a fault. -/
def Fault.message : Fault → String
  | missingField owner field => s!"'{owner}' object has no attribute '{field}'"
  | unassigned name =>
    s!"cannot access local variable '{name}' where it is not associated with a value"
  | outOfRange => "list index out of range"
  | unknownBuiltin name => Text.quoted name
  | undefinedName name => s!"name '{name}' is not defined"
  | stopped => ""
  | endOfInput => "EOF when reading a line"
  | badInteger text => "invalid literal for int() with base 10: " ++ Text.quoted text
  | badFloat text => "could not convert string to float: " ++ Text.quoted text
  | operands operator left right =>
    s!"unsupported operand type(s) for {operator}: '{left}' and '{right}'"
  | concatenation right => s!"can only concatenate str (not \"{right}\") to str"
  | repetition count => s!"can't multiply sequence by non-int of type '{count}'"
  | hugeRepetition => "cannot fit 'int' into an index-sized integer"
  | longRepetition => "repeated string is too long"
  | unordered operator left right =>
    s!"'{operator}' not supported between instances of '{left}' and '{right}'"
  | signOperand operator kind => s!"bad operand type for unary {operator}: '{kind}'"
  | zeroToNegativePower => "0.0 cannot be raised to a negative power"
  | complexZeroPower => "0.0 to a negative or complex power"
  | powerOverflow => "(34, 'Numerical result out of range')"
  | complexPowerOverflow => "complex exponentiation"
  | integerTooLarge => "int too large to convert to float"
  | format cause => cause.message
  | promptCount count => s!"input expected at most 1 argument, got {count}"
  | unshowable kind => s!"{kind}.__repr__() takes 0 positional arguments but 1 was given"
  | unshowableKind kind =>
    s!"{kind}.__repr__() missing 1 required positional argument: 'self'"
  | noParts => "vars() argument must have __dict__ attribute"
  | .path cause name => s!"{cause.message}: " ++ Text.quoted name
  | exhausted => "step budget exhausted"

end Scriptlet
