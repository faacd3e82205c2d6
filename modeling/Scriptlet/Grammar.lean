import Scriptlet.Node
import Scriptlet.Token.Cursor

/-! # From tokens to a program

A recursive-descent reader of the grammar. Expressions are read level by level, from `or` down to
literals, names, calls and parentheses; operators of one level associate to the left, powers to the
right. Statements are declarations, assignments, calls, conditionals, loops, `break` and
`continue`; every block opens a scope inside the one around it.

A mistake is reported at the token before the current one. Reading then goes on at the next
semicolon, or at the next token that begins a statement, and an empty node stands for what was not
understood.

Every function takes a budget that bounds the depth of its calls; `programBudget` is enough for
every list of tokens. A host whose calls may only nest to a fixed depth is not modelled: programs
and expressions can be nested as deeply as one likes, here and in what works on the nodes.
-/
namespace Scriptlet

/-- Reading in progress. -/
structure ParseState where
  /-- The tokens and the current place. -/
  cursor : Cursor
  /-- The scopes opened so far. -/
  scopes : Scopes := {}
  /-- The problems found so far. -/
  reports : List Diagnostic := []
deriving Inhabited

/-- A reader: it gives a result or a fault, and the state it reached in either case. -/
abbrev Parse := EStateM Fault ParseState

namespace Parse

/-- A result of looking at the tokens. -/
def look {α : Type} (f : Cursor → Except Fault α) : Parse α := do
  match f (← get).cursor with
  | .ok a => return a
  | .error fault => throw fault

/-- A result that does not depend on the state. -/
def ofExcept {α : Type} (e : Except Fault α) : Parse α :=
  match e with
  | .ok a => pure a
  | .error fault => throw fault

/-- Whether the current token marks the end. -/
def atEnd : Parse Bool :=
  look Cursor.atEnd

/-- Goes on by one token, but not beyond the end. -/
def advance : Parse Bool := do
  if ← atEnd then return false
  modify fun s => { s with cursor := { s.cursor with index := s.cursor.index + 1 } }
  return true

/-- The place of the token before the current one. -/
def place : Parse Pos :=
  look fun c => c.previous.map Token.pos

/-- Whether the current token is of the given kind. -/
def check (kind : TokenKind) : Parse Bool := do
  if ← atEnd then return false
  let t ← look Cursor.current
  return t.kind = kind

/-- Goes on by one token if it is of one of the given kinds. -/
def accept : List TokenKind → Parse Bool
  | [] => return false
  | kind :: rest => do
    if ← check kind then
      let _ ← advance
      return true
    else accept rest

/-- Whether reading can go on at a token of this kind after a mistake. -/
def resumesAt : TokenKind → Bool
  | .semicolon | .varWord | .letWord | .identifier | .ifWord | .whileWord | .loopWord => true
  | _ => false

/-- Goes on to the next token at which reading can go on, or to the end. -/
def synchronize : Parse Unit := do
  let c := (← get).cursor
  let rest := c.tokens.toList.drop c.index
  match rest.findIdx? fun t => t.kind = .endOfFile || resumesAt t.kind with
  | some i => modify fun s => { s with cursor := { s.cursor with index := c.index + i } }
  | none =>
    modify fun s => { s with cursor := { s.cursor with index := c.index + rest.length } }
    throw .outOfRange

/-- Reports a mistake, and goes on to where reading can go on. -/
def declareError (problem : GrammarProblem) : Parse Unit := do
  let p ← place
  modify fun s => { s with reports := s.reports ++ [.grammar problem p] }
  synchronize

/-- Goes on by one token if it is of the given kind; that it is not is a mistake. -/
def expect (kind : TokenKind) (problem : GrammarProblem) : Parse Bool := do
  if ← accept [kind] then return true
  declareError problem
  return false

/-- The text of the token `offset` places from the current one. -/
def textAt (offset : Int) : Parse String :=
  look fun c => (c.get offset).map Token.text

/-- Opens a scope. -/
def openScope (parent : ScopeId) : Parse ScopeId := do
  let s ← get
  let (scopes, i) := s.scopes.openIn parent
  set { s with scopes := scopes }
  return i

end Parse

/-! ## Expressions -/

/-- The levels of expressions, from the weakest operators to the parts without operators. -/
inductive Level where
  /-- `or` -/
  | disjunction
  /-- `and` -/
  | conjunction
  /-- `not` -/
  | negation
  /-- `==` and `!=` -/
  | equality
  /-- The order operators. -/
  | comparison
  /-- `+` and `-` -/
  | sum
  /-- `*`, `/` and `%` -/
  | product
  /-- A minus sign. -/
  | sign
  /-- `**` -/
  | power
  /-- Literals, names, calls and parentheses. -/
  | primitive
deriving DecidableEq, Repr

namespace Level

/-- The next stronger level. -/
def next : Level → Level
  | disjunction => conjunction
  | conjunction => negation
  | negation => equality
  | equality => comparison
  | comparison => sum
  | sum => product
  | product => sign
  | sign => power
  | power => primitive
  | primitive => primitive

/-- The tokens of the operators between two parts of a level. -/
def operators : Level → List TokenKind
  | disjunction => [.orWord]
  | conjunction => [.andWord]
  | equality => [.equal, .different]
  | comparison => [.greater, .less, .greaterEqual, .lessEqual]
  | sum => [.plus, .minus]
  | product => [.star, .slash, .percent]
  | power => [.doubleStar]
  | negation | sign | primitive => []

/-- The level of the right side of an operator: powers associate to the right. -/
def rightSide : Level → Level
  | power => power
  | l => l.next

/-- Joins two parts by an operator of a level, which is given as it is written. -/
def join (l : Level) (operator : String) (left right : Node) : Except Fault Node :=
  match l with
  | disjunction => Node.mkLogic .or left right
  | conjunction => Node.mkLogic .and left right
  | equality | comparison => Node.mkComparison (Comparison.ofSymbol operator) left right
  | power => Node.mkArithmetic .pow left right
  | _ => Node.mkArithmetic (Arithmetic.ofSymbol operator) left right

end Level

namespace Parse

/-- The literal that a token of a number is. -/
def numberNode (t : Token) : Node :=
  match t.content with
  | .float x => .literal .float (.float x) t.pos
  | content => .literal .int content.value t.pos

mutual

/-- Reads an expression of a level. -/
def expression : Nat → Level → Parse Node
  | 0, _ => throw .exhausted
  | n + 1, .negation => do
    if ← accept [.notWord] then
      let operand ← expression n .negation
      ofExcept (Node.mkNegation operand)
    else expression n .equality
  | n + 1, .sign => do
    if ← accept [.minus] then
      let operator ← textAt (-1)
      let operand ← expression n .sign
      ofExcept (Node.mkSigned (Sign.ofSymbol operator) operand)
    else expression n .power
  | n + 1, .primitive => primitive n
  | n + 1, level => do
    let left ← expression n level.next
    chain n level left

/-- Reads the further operators of a level and their right sides. -/
def chain : Nat → Level → Node → Parse Node
  | 0, _, _ => throw .exhausted
  | n + 1, level, left => do
    if ← accept level.operators then
      let operator ← textAt (-1)
      let right ← expression n level.rightSide
      let node ← ofExcept (level.join operator left right)
      chain n level node
    else return left

/-- Reads a part without operators. -/
def primitive : Nat → Parse Node
  | 0 => throw .exhausted
  | n + 1 => do
    let before ← place
    if ← accept [.number] then
      return numberNode (← look Cursor.previous)
    if ← accept [.text] then
      let t ← look Cursor.previous
      return .literal .string t.content.value t.pos
    if ← accept [.trueWord] then
      return .literal .bool (.bool true) (← place)
    if ← accept [.falseWord] then
      return .literal .bool (.bool false) (← place)
    if ← accept [.noneWord] then
      return .empty before
    if ← accept [.leftParen] then
      let node ← expression n .disjunction
      if ← expect .rightParen .openParenthesis then return node else return .empty before
    if ← accept [.identifier] then
      if ← accept [.leftParen] then call n
      else
        let t ← look Cursor.previous
        return .identifier t.text t.pos
    else
      declareError .unexpectedPrimitive
      return .empty before

/-- Reads the arguments of a call, behind the opening parenthesis. -/
def call : Nat → Parse Node
  | 0 => throw .exhausted
  | n + 1 => do
    let callee ← textAt (-2)
    match ← arguments n with
    | some args => return .call callee args
    | none => return .empty (← place)

/-- Reads arguments up to the closing parenthesis; none are given if it does not come. -/
def arguments : Nat → Parse (Option (List Node))
  | 0 => throw .exhausted
  | n + 1 => do
    let arg ← expression n .disjunction
    if ← accept [.comma] then
      let more ← arguments n
      return more.map (arg :: ·)
    else if ← accept [.rightParen] then return some [arg]
    else
      declareError .openCall
      return none

end

/-! ## Statements -/

/-- The compound assignments and their operators. -/
def compoundAssignments : List (TokenKind × Arithmetic) :=
  [(.plusAssign, .add), (.minusAssign, .sub), (.starAssign, .mul), (.slashAssign, .div),
   (.doubleStarAssign, .pow), (.percentAssign, .mod)]

/-- Reads a compound assignment, if one of the given list comes: `x op= e` assigns `x op e`. -/
def compoundValue (n : Nat) (name : String) :
    List (TokenKind × Arithmetic) → Parse (Option Node)
  | [] => return none
  | (kind, op) :: rest => do
    if ← accept [kind] then
      let left := Node.identifier name (← place)
      let right ← expression n .disjunction
      return some (← ofExcept (Node.mkArithmetic op left right))
    else compoundValue n name rest

/-- Reads an assignment, behind the name of the variable. -/
def assignment (n : Nat) : Parse Node := do
  let name ← textAt (-1)
  let before ← place
  if ← accept [.assign] then
    let value ← expression n .disjunction
    ofExcept (Node.mkAssignment name value)
  else
    match ← compoundValue n name compoundAssignments with
    | some value => ofExcept (Node.mkAssignment name value)
    | none =>
      declareError .missingAssignment
      return .empty before

/-- Reads one declared variable, behind the type or a comma. -/
def declarator (n : Nat) (type : String) (isMutable : Bool) : Parse Node := do
  let before ← place
  if !(← expect .identifier .missingName) then return .empty before
  let name ← textAt (-1)
  if ← accept [.assign] then
    let value ← expression n .disjunction
    ofExcept (Node.mkDeclaration name type isMutable value)
  else
    if (← check .semicolon) then
      ofExcept (Node.mkDeclaration name type isMutable (.empty before))
    else if (← check .comma) then
      ofExcept (Node.mkDeclaration name type isMutable (.empty before))
    else
      declareError .missingInitializer
      return .empty before

/-- Reads the variables of a declaration, which commas divide. -/
def declarators : Nat → String → Bool → Parse (List Node)
  | 0, _, _ => throw .exhausted
  | n + 1, type, isMutable => do
    let first ← declarator n type isMutable
    if ← accept [.comma] then
      let more ← declarators n type isMutable
      return first :: more
    else return [first]

/-- Reads a declaration, behind `var` or `let`. -/
def declaration (n : Nat) (before : Pos) : Parse (List Node) := do
  if ← accept [.intWord, .floatWord, .stringWord, .boolWord] then
    let introduced ← look fun c => c.get (-2)
    let type ← textAt (-1)
    declarators n type (introduced.kind ≠ .letWord)
  else
    declareError .missingType
    return [.empty before]

mutual

/-- Reads a statement. A declaration of several variables gives several nodes. -/
def statement : Nat → ScopeId → Parse (List Node)
  | 0, _ => throw .exhausted
  | n + 1, scope => do
    let before ← place
    if ← accept [.varWord, .letWord] then declaration n before
    else if ← accept [.identifier] then
      if ← accept [.leftParen] then return [← call n] else return [← assignment n]
    else if ← accept [.ifWord] then return [← conditional n scope]
    else if ← accept [.whileWord] then
      let condition ← expression n .disjunction
      return [.loop condition (← block n scope)]
    else if ← accept [.loopWord] then
      let condition := Node.literal .bool (.bool true) (← place)
      return [.loop condition (← block n scope)]
    else if ← accept [.breakWord] then return [.breakLoop]
    else if ← accept [.continueWord] then return [.continueLoop]
    else
      declareError .unexpectedStatement
      return [.empty before]

/-- Reads a conditional statement, behind `if`. -/
def conditional : Nat → ScopeId → Parse Node
  | 0, _ => throw .exhausted
  | n + 1, scope => do
    let branches ← branches n scope
    if ← accept [.elseWord] then
      let body ← block n scope
      return .conditional branches (.otherwise body)
    else return .conditional branches (.empty (← place))

/-- Reads a condition and its block, and those behind further `elif`s. -/
def branches : Nat → ScopeId → Parse (List (Node × Node))
  | 0, _ => throw .exhausted
  | n + 1, scope => do
    let condition ← expression n .disjunction
    let body ← block n scope
    if ← accept [.elifWord] then
      let more ← branches n scope
      return (condition, body) :: more
    else return [(condition, body)]

/-- Reads a block, with a scope of its own. -/
def block : Nat → ScopeId → Parse Node
  | 0, _ => throw .exhausted
  | n + 1, scope => do
    let before ← place
    if !(← expect .leftBrace .missingBlock) then return .empty before
    let inner ← openScope scope
    match ← blockBody n inner with
    | some statements => return .block statements inner
    | none => return .empty before

/-- Reads the statements of a block up to its end; none are given if it does not come. -/
def blockBody : Nat → ScopeId → Parse (Option (List Node))
  | 0, _ => throw .exhausted
  | n + 1, scope => do
    if ← accept [.semicolon] then blockBody n scope
    else if ← atEnd then
      declareError .openBlock
      return none
    else if ← accept [.rightBrace] then return some []
    else
      let first ← statement n scope
      let more ← blockBody n scope
      return more.map (first ++ ·)

end

/-- Reads statements to the end of the program. -/
def programBody : Nat → Parse (List Node)
  | 0 => throw .exhausted
  | n + 1 => do
    if ← accept [.semicolon] then programBody n
    else if ← atEnd then return []
    else
      let first ← statement n Scopes.root
      let more ← programBody n
      return first ++ more

/-- A budget that is enough for a list of `size` tokens: between two tokens that are read, the calls
go down through the levels at most once. -/
def programBudget (size : Nat) : Nat :=
  20 * (size + 2)

/-- Reads a program. -/
def program : Parse Node := do
  let size := (← get).cursor.tokens.size
  let statements ← programBody (programBudget size)
  return .program statements Scopes.root

/-- Reads one expression of a level. -/
def expressionAt (level : Level) : Parse Node := do
  let size := (← get).cursor.tokens.size
  expression (programBudget size) level

end Parse

/-- **The program of a list of tokens**, or the fault that stopped reading, with the state that was
reached. -/
def parseProgram (tokens : List Token) : EStateM.Result Fault ParseState Node :=
  Parse.program.run { cursor := { tokens := tokens.toArray } }

end Scriptlet
