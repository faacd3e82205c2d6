import Scriptlet.Token

/-! # Diagnostics

What is wrong with a program, as it is told to its author. A diagnostic names a problem and the
place where it shows; work goes on after it. Every stage has its own problems: reading words,
finding the ends of statements, reading the grammar, checking types and running. The wording of
all of them is in this module.
-/
namespace Scriptlet

/-- What can be wrong with the words of a program. -/
inductive ScanProblem where
  /-- A character that begins no word. -/
  | strangeSymbol (c : Char)
  /-- A text literal without its closing mark. -/
  | unclosedText (mark : Char)
  /-- A block comment without its end. -/
  | unclosedComment
deriving DecidableEq, Repr

/-- What can be wrong with the ends of statements. -/
inductive TerminatorProblem where
  /-- A semicolon inside parentheses. -/
  | insideParentheses
  /-- Line breaks and semicolons both end statements. -/
  | mixedStyles
  /-- A semicolon after something that is no end of a statement. -/
  | misplaced
  /-- Anything else, in the given words. -/
  | other (text : String)
deriving DecidableEq, Repr

/-- What can be wrong with the grammar of a program. -/
inductive GrammarProblem where
  /-- A declaration names no type. -/
  | missingType
  /-- A declaration names no variable. -/
  | missingName
  /-- After the name in a declaration comes neither a value nor an end. -/
  | missingInitializer
  /-- A statement begins with a name and is no assignment. -/
  | missingAssignment
  /-- A call is not closed. -/
  | openCall
  /-- A block does not begin. -/
  | missingBlock
  /-- A block does not end. -/
  | openBlock
  /-- A parenthesis is not closed. -/
  | openParenthesis
  /-- No statement begins so. -/
  | unexpectedStatement
  /-- No expression begins so. -/
  | unexpectedPrimitive
  /-- Anything else, in the given words. -/
  | other (text : String)
deriving DecidableEq, Repr

/-- The families of operations that the checker tells apart in its messages. -/
inductive Family where
  /-- A sign before a number. -/
  | unary
  /-- An arithmetic operator. -/
  | arithmetic
  /-- `and` and `or`. -/
  | boolean
  /-- `not`. -/
  | negation
  /-- `==` and `!=`. -/
  | equality
  /-- The order operators. -/
  | comparison
deriving DecidableEq, Repr

/-- What can be wrong with the types in a program. Operators, types and labels are given as they
are written. -/
inductive TypeProblem where
  /-- A condition is a variable that does not exist. -/
  | conditionUnknown (name : String)
  /-- A condition is a variable without a value. -/
  | conditionEmpty (name : String)
  /-- A condition is a variable of another type. -/
  | conditionKind (name type : String)
  /-- A condition is no condition. -/
  | conditionInvalid
  /-- A variable does not exist where a type is expected. -/
  | unknownOfType (name type : String)
  /-- The initial value of a variable is a variable of another type. -/
  | initialKind (type label name : String)
  /-- The initial value of a variable is an expression of another type. -/
  | initialExpression (type label : String)
  /-- An integer after a sign. -/
  | signedInteger (expected : String)
  /-- A floating-point number after a sign. -/
  | signedFloat (expected : String)
  /-- A variable after a sign where no type is settled. -/
  | signedUnsettled
  /-- Something else after a sign. -/
  | signedOther (expected label : String)
  /-- `none` as an operand. -/
  | emptyOperand (family : Family) (operator : String)
  /-- A variable without a value as an operand. -/
  | emptyVariable (name : String)
  /-- An integer as an operand where another type is expected. -/
  | integerOperand (expected operator : String)
  /-- A floating-point number as an operand where another type is expected. -/
  | floatOperand (expected operator : String)
  /-- A variable as an operand where no type is settled. -/
  | operandUnsettled
  /-- Something else on the left of an arithmetic operator. -/
  | leftOperand (expected operator label : String)
  /-- Something else on the right of an arithmetic operator. -/
  | rightOperand (expected label : String)
  /-- A variable that does not exist where a truth value is expected. -/
  | boolUnknown (name : String)
  /-- A variable of another type beside `and` or `or`. -/
  | boolVariable (operator label : String)
  /-- Something else beside `and` or `or`. -/
  | boolOperand (label : String)
  /-- A variable does not exist. -/
  | unknownVariable (name : String)
  /-- A variable of another type after `not`. -/
  | notVariable (label : String)
  /-- Something else after `not`. -/
  | notOperand (label : String)
  /-- Something that cannot be compared. -/
  | invalidOperand (family : Family) (operator : String)
  /-- A literal of another type on the right of a comparison. -/
  | literalMismatch (family : Family) (operator left right : String)
  /-- A comparison on the right of something that is no truth value. -/
  | comparisonMismatch (operator left : String)
  /-- A negation on the right of something that is no truth value. -/
  | notMismatch
  /-- An arithmetic expression of another type on the right of a comparison. -/
  | arithmeticMismatch (family : Family) (operator left right : String)
  /-- A signed expression of another type on the right of a comparison. -/
  | signMismatch (family : Family) (operator left right : String)
  /-- `and` or `or` on the right of something that is no truth value. -/
  | booleanMismatch (operator left : String)
deriving DecidableEq, Repr

/-- What is told to the author of a program. -/
inductive Diagnostic where
  /-- A problem with the words. -/
  | scan (problem : ScanProblem) (pos : Pos)
  /-- A problem with the ends of statements. -/
  | terminator (problem : TerminatorProblem) (pos : Pos)
  /-- A problem with the grammar. -/
  | grammar (problem : GrammarProblem) (pos : Pos)
  /-- A problem with the types. -/
  | typing (problem : TypeProblem) (pos : Pos)
  /-- A division by zero. -/
  | zeroDivision (pos : Pos)
  /-- A remainder by zero. -/
  | zeroModulo (pos : Pos)
  /-- The negation of something that is no truth value. -/
  | notOfOther
  /-- Anything else, in the given words. -/
  | note (text : String)
deriving DecidableEq, Repr

/-! ## Wording -/

/-- The wording of a problem with the words, with its place. -/
def ScanProblem.message (p : Pos) : ScanProblem → String
  | strangeSymbol c =>
    s!"[LexerError][line:{p.line}, col:{p.column}] Strange symbol found -> '{c}'"
  | unclosedText mark =>
    s!"[LexerError][line:{p.line} , col:{p.column}] You forgot to close the string with "
      ++ s!"quotation marks; use them at the end -> '{mark}'"
  | unclosedComment =>
    s!"[Lexer Error][line:{p.line}, col:{p.column}] You forgot to close the comment with these "
      ++ "characters -> '*/'"

/-- The wording of a problem with the ends of statements. -/
def TerminatorProblem.message : TerminatorProblem → String
  | insideParentheses => "semicolon found in an unexpected place, remove it"
  | mixedStyles =>
    "You are using both newlines and semicolons in the terminator; please use only one style."
  | misplaced => "Semicolon in an unexpected position, please remove it"
  | other text => text

/-- The wording of a problem with the grammar. -/
def GrammarProblem.message : GrammarProblem → String
  | missingType =>
    "The variable declaration attempt failed; the variable's data type was missing after the "
      ++ "mutated type."
  | missingName => "Variable declaration attempt failed, identifier not declared"
  | missingInitializer =>
    "Variable declaration attempt failed; neither assignment operator ('=') for initialization "
      ++ "\nnor semicolon (';') to terminate the statement with an empty declaration was found."
  | missingAssignment =>
    "The attempt to assign to a variable failed; the common assignment operator or compound "
      ++ "assignment operator was not found."
  | openCall =>
    "The function call failed; I needed closing parenthesis ')' or ',' to continue providing "
      ++ "arguments."
  | missingBlock =>
    "Attempt at statement with code block failed, opening block '\x7b' could not be found"
  | openBlock => "Attempt at statement with code block failed, block closure '\x7d' not found"
  | openParenthesis =>
    "Priority exploitation attempt failed, parenthesis lock ')' not found"
  | unexpectedStatement => "Unexpected syntax error"
  | unexpectedPrimitive => "Unexpected primitive"
  | other text => text

/-- The family in the middle of a sentence. -/
def Family.name : Family → String
  | unary => "unary"
  | arithmetic => "arithmetic"
  | boolean => "boolean"
  | negation => "not boolean"
  | equality => "equality"
  | comparison => "comparison"

/-- The family at the start of a sentence about two sides that do not match. -/
def Family.title : Family → String
  | equality => "Equality"
  | _ => "Comparison"

/-- The sentence about a variable that has no value. -/
def emptyVariableText (name : String) : String :=
  s!"The variable '{name}' exists but has no assigned value; its current value 'none' is not "
    ++ "manipulable. Try assigning it a valid value,\nor another valid expression."

/-- The sentence about a mismatch of number types, where `reminder` says what kind of operation
stands on the right. -/
def numberMismatchText (family : Family) (operator reminder left right : String) : String :=
  s!"{family.title} operation error '{operator}', the type of the expression right does not match "
    ++ s!"the expression left,\nremember that {reminder} always return a number of the same type "
    ++ "as the numbers in the operation (int or float), also remember that two numbers in an "
    ++ s!"equality operation must ALWAYS match in type, types found: (left: '{left}', "
    ++ s!"right: '{right}')"

/-- The wording of a problem with the types. -/
def TypeProblem.message : TypeProblem → String
  | conditionUnknown name =>
    "Error in condition, use of non-existent variable, an attempt was made to use a variable "
      ++ s!"called '{name}', give it a value or use a valid expression for the condition, remember "
      ++ "that conditions must always have an expression that returns a bool"
  | conditionEmpty name =>
    "Error in condition, use of variable exists but is empty. An attempt was made to use a "
      ++ s!"variable called '{name}' which is none. Please assign a value or use a valid "
      ++ "expression for the condition. Remember that conditions must always have an expression "
      ++ "that returns a boolean."
  | conditionKind name type =>
    "Error in condition, use of variable exists but with a non-boolean value. An attempt was made "
      ++ s!"to use a variable called '{name}' which is a '{type}'. Please use a valid expression "
      ++ "for the condition. Remember that conditions must always have an expression that returns "
      ++ "a boolean."
  | conditionInvalid =>
    "Error in condition, in the condition you used an invalid expression, try to use a valid "
      ++ "condition that returns a boolean."
  | unknownOfType name type =>
    s!"Variable called '{name}' does not exist, try using an existing variable or a valid "
      ++ s!"expression of type '{type}'."
  | initialKind type label name =>
    match type with
    | "int" =>
      s!"A value 'float' was expected, but a value '{label}' was found for the variable '{name}', "
        ++ "try using an existing variable or a valid epression of type 'int'."
    | "float" =>
      s!"A value 'float' was expected but a value '{label}' was found for the variable '{name}', "
        ++ "try using an existing variable or value of type 'float'."
    | _ =>
      s!"A value 'boolean value' was expected, but a value '{label}' was found for the variable "
        ++ s!"'{name}', try using a variable or value of type 'boolean value'."
  | initialExpression type label =>
    s!"An expression of type '{type}' was expected, but a '{label}' was found"
  | signedInteger expected =>
    s!"A value '{expected}' was expected, but a value 'float' was found, try using a variable or "
      ++ "a expresion of type 'float'."
  | signedFloat expected =>
    s!"A value '{expected}' was expected, but a value 'int' was found, try using a variable or "
      ++ "a expresion of type 'int'."
  | signedUnsettled =>
    "You tried to convert an invalid value to negative in this operation; try using an int or "
      ++ "float."
  | signedOther expected label =>
    s!"An {expected} value was expected, but {label} was found, remember that for unary '-' or "
      ++ "'+' only valid numbers are allowed."
  | emptyOperand family operator =>
    s!"Empty expression error, a 'none' value was used in the {family.name} operation "
      ++ s!"'{operator}', please use a valid expression, remember that 'none' values "
      ++ "\u200b\u200bare unusable"
  | emptyVariable name => emptyVariableText name
  | integerOperand expected operator =>
    s!"A value '{expected}' was expected in the operation '{operator}', but a value 'int' was "
      ++ s!"found, try using a variable or a expresion of type '{expected}'."
  | floatOperand expected operator =>
    s!"A value '{expected}' was expected in the operation '{operator}', but a value 'float' was "
      ++ s!"found, try using a variable or a expresion of type '{expected}'"
  | operandUnsettled =>
    "You're trying to perform an arithmetic operation with invalid values; try using only int or "
      ++ "float."
  | leftOperand expected operator label =>
    s!"A value '{expected}' was expected in the operation '{operator}', but a value '{label}' was "
      ++ s!"found, try using a variable or a expresion of type '{expected}'."
  | rightOperand expected label =>
    s!"A value '{expected}' was expected in the arithmetic operation, but a value '{label}' was "
      ++ s!"found, try using a variable or a expresion of type '{expected}'."
  | boolUnknown name =>
    s!"Variable called '{name}' does not exist, try using a valid expression of type 'bool'."
  | boolVariable operator label =>
    s!"A value 'bool' was expected in the operation {operator}, but a value '{label}' was found, "
      ++ "try using a variable or value of type 'bool'."
  | boolOperand label =>
    s!"A value 'bool' was expected, but a value '{label}' was found, try using a variable or a "
      ++ "expresion of type 'bool'."
  | unknownVariable name =>
    s!"Variable called '{name}' does not exist, try using a valid expression."
  | notVariable label =>
    s!"A value 'bool' was expected in the operation 'not', but a value '{label}' was found, try "
      ++ "using a variable or value of type 'bool'."
  | notOperand label =>
    s!"A value 'bool' was expected, but a value '{label}' was found, try using a expresion of "
      ++ "type 'bool'."
  | invalidOperand family operator =>
    s!"A valid value was expected in the {family.name} operation '{operator}', try using valid "
      ++ "expressions on both sides of the operation"
  | literalMismatch family operator left right =>
    s!"{family.title} operation error '{operator}', the type of the expression right does not "
      ++ "match the type of the expression left,\ntry using expressions that match in types, "
      ++ s!"these are the types found: (left: '{left}', right: '{right}')"
  | comparisonMismatch operator left =>
    s!"Equality operation error '{operator}', The type of expression 'right' does not match the "
      ++ "type of expression 'left',\nremember that equality and comparison operations always "
      ++ s!"return a bool, these are the types found: (left: '{left}', right: 'bool')"
  | notMismatch =>
    "Equality operation error '', The type of expression 'right' does not match the type of "
      ++ "expression 'left',\nremember that the boolean 'not' operation always returns a bool, "
      ++ "these are the types found: (left: '', right: 'bool')"
  | arithmeticMismatch family operator left right =>
    numberMismatchText family operator "arithmetic operations" left right
  | signMismatch family operator left right =>
    numberMismatchText family operator "unary operations '-'" left right
  | booleanMismatch operator left =>
    s!"Equality operation error '{operator}', the type of the expression right does not match the "
      ++ "expression left,\nremember that boolean operations always return a bool, returned "
      ++ s!"types: (left: '{left}', right: 'bool')"

/-- A diagnostic as it is shown. -/
def Diagnostic.text : Diagnostic → String
  | scan problem p => problem.message p
  | terminator problem p =>
    s!"[TerminationError][line: {p.line}, col: {p.column}] {problem.message}"
  | grammar problem p => s!"[ParserError][line: {p.line}, col: {p.column}] {problem.message}"
  | typing problem p => s!"[SemanticError][line: {p.line}, col: {p.column}] {problem.message}"
  | zeroDivision p =>
    s!"[ZeroDivisionError][line: {p.line}, col: {p.column}] You cannot divide a number by zero"
  | zeroModulo p =>
    s!"[ZeroDivisionError][line: {p.line}, col: {p.column}] You cannot find the modulus of a "
      ++ "number divided by zero"
  | notOfOther =>
    "[BooleanError] You cannot operate on a non-bool value with the boolean operator not"
  | note text => text

/-- Diagnostics as they are printed, with an empty line behind each. -/
def Diagnostic.page (ds : List Diagnostic) : String :=
  String.join (ds.map fun d => d.text ++ "\n\n")

end Scriptlet
