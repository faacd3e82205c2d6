import Scriptlet.Scope
import Scriptlet.Token
import Scriptlet.Value.Arithmetic

/-! # The tree of a program

A program is a tree of nodes. Statements and expressions are nodes alike, and the tree is loose: a
program with mistakes can have a node of any kind in any place, and the later stages are defined
on such trees too. What a node of some kind does not have (a place in the text, a left side, a
scope) it is a fault to ask for.

A node that is made of others stands where its first part stands, so it can be made only from a
part that has a place.
-/
namespace Scriptlet

/-- The kinds of literals. -/
inductive LiteralKind where
  /-- An integer. -/
  | int
  /-- A floating-point number. -/
  | float
  /-- A text. -/
  | string
  /-- A truth value. -/
  | bool
  /-- A literal of no particular type. -/
  | plain
deriving DecidableEq, Repr, Inhabited

/-- The operators on truth values. -/
inductive Logic where
  /-- `and` -/
  | and
  /-- `or` -/
  | or
  /-- Any other text in the place of an operator. It computes nothing. -/
  | other (text : String)
deriving DecidableEq, Repr, Inhabited

/-- The operator as it is written. -/
def Logic.symbol : Logic → String
  | and => "and"
  | or => "or"
  | other text => text

/-- The operator that is written so. -/
def Logic.ofSymbol (text : String) : Logic :=
  match text with
  | "and" => and
  | "or" => or
  | _ => other text

/-- A node of a program. -/
inductive Node where
  /-- Nothing: the literal `none`, a missing value, or what stands for a part that was not
  understood. -/
  | empty (pos : Pos)
  /-- A literal. -/
  | literal (kind : LiteralKind) (value : Value) (pos : Pos)
  /-- A variable. -/
  | identifier (name : String) (pos : Pos)
  /-- An expression behind a sign. -/
  | signed (sign : Sign) (operand : Node)
  /-- `not`. -/
  | negation (operand : Node)
  /-- `and` or `or`. -/
  | logic (operator : Logic) (left right : Node)
  /-- A comparison. -/
  | comparison (operator : Comparison) (left right : Node)
  /-- An arithmetic operation. -/
  | arithmetic (operator : Arithmetic) (left right : Node)
  /-- An assignment to a variable. -/
  | assignment (name : String) (value : Node)
  /-- The declaration of a variable. -/
  | declaration (name type : String) (isMutable : Bool) (value : Node)
  /-- The call of a function. -/
  | call (callee : String) (arguments : List Node)
  /-- The last part of a conditional statement. -/
  | otherwise (block : Node)
  /-- A conditional statement: conditions with their blocks, and what is done otherwise. -/
  | conditional (branches : List (Node × Node)) (otherwise : Node)
  /-- A loop. -/
  | loop (condition block : Node)
  /-- A block with its scope. -/
  | block (statements : List Node) (scope : ScopeId)
  /-- A whole program with its scope. -/
  | program (statements : List Node) (scope : ScopeId)
  /-- `break`. -/
  | breakLoop
  /-- `continue`. -/
  | continueLoop
  /-- A node of no particular kind. -/
  | bare
  /-- A value in the place of a node. -/
  | raw (value : Value)
deriving Inhabited

/-- The name of the type of a literal; a plain one has none. -/
def LiteralKind.typeName? : LiteralKind → Option String
  | int => some "int"
  | float => some "float"
  | string => some "string"
  | bool => some "bool"
  | plain => none

/-- How messages name a literal; a plain one has no name. -/
def LiteralKind.label? : LiteralKind → Option String
  | int => some "integer 64-bits"
  | float => some "float 64-bits"
  | string => some "string literal"
  | bool => some "boolean value"
  | plain => none

/-- The name of the kind of a literal. -/
def LiteralKind.name : LiteralKind → String
  | int => "IntNode"
  | float => "FloatNode"
  | string => "StringNode"
  | bool => "BoolNode"
  | plain => "LiteralNode"

namespace Node

/-- The name of the kind of a node. -/
def kindName : Node → String
  | empty _ => "NoneNode"
  | literal kind _ _ => kind.name
  | identifier .. => "VariableNode"
  | signed .. => "UnaryNode"
  | negation _ => "NotBooleanNode"
  | logic .. => "BooleanOpNode"
  | comparison .. => "ComparisonOpNode"
  | arithmetic .. => "BinaryOpNode"
  | assignment .. => "AssignmentNode"
  | declaration .. => "DeclarationNode"
  | call .. => "CallNode"
  | otherwise _ => "ElseNode"
  | conditional .. => "IfNode"
  | loop .. => "WhileNode"
  | block .. => "BlockNode"
  | program .. => "ProgramNode"
  | breakLoop => "BreakStatement"
  | continueLoop => "ContinueStatement"
  | bare => "Node"
  | raw v => v.kind

/-! ## The parts of a node -/

/-- The fault that a node does not have a field. -/
def lacks {α : Type} (n : Node) (field : String) : Except Fault α :=
  .error (.missingField n.kindName field)

/-- Where a node stands, if it has a place. -/
def pos? : Node → Option Pos
  | empty p => some p
  | literal _ _ p => some p
  | identifier _ p => some p
  | signed _ operand => operand.pos?
  | negation operand => operand.pos?
  | logic _ left _ => left.pos?
  | comparison _ left _ => left.pos?
  | arithmetic _ left _ => left.pos?
  | assignment _ value => value.pos?
  | declaration _ _ _ value => value.pos?
  | _ => none

/-- Where a node stands. -/
def pos (n : Node) : Except Fault Pos :=
  match n.pos? with
  | some p => .ok p
  | none => n.lacks "line"

/-- How messages name a node. -/
def label (n : Node) : Except Fault String :=
  match n with
  | literal kind _ _ =>
    match kind.label? with
    | some text => .ok text
    | none => n.lacks "label"
  | identifier .. => .ok "variable"
  | signed .. => .ok "negative unary"
  | negation _ => .ok "boolean operation not"
  | logic op _ _ => .ok s!"Boolean operation '{op.symbol}'"
  | comparison op _ _ => .ok s!"comparison operation {op.symbol}"
  | arithmetic op _ _ => .ok s!"arithmetic operation {op.symbol}"
  | _ => n.lacks "label"

/-- The left side of an operation. -/
def left (n : Node) : Except Fault Node :=
  match n with
  | logic _ l _ | comparison _ l _ | arithmetic _ l _ => .ok l
  | _ => n.lacks "left"

/-- The right side of an operation. -/
def right (n : Node) : Except Fault Node :=
  match n with
  | logic _ _ r | comparison _ _ r | arithmetic _ _ r => .ok r
  | _ => n.lacks "right"

/-- The operator of an operation, as it is written. -/
def operator (n : Node) : Except Fault String :=
  match n with
  | logic op _ _ => .ok op.symbol
  | comparison op _ _ => .ok op.symbol
  | arithmetic op _ _ => .ok op.symbol
  | signed op _ => .ok op.symbol
  | _ => n.lacks "operator"

/-- What a sign or a negation applies to. -/
def operand (n : Node) : Except Fault Node :=
  match n with
  | signed _ o => .ok o
  | negation o => .ok o
  | _ => n.lacks "node"

/-- The name that a node mentions. -/
def name (n : Node) : Except Fault String :=
  match n with
  | identifier x _ => .ok x
  | assignment x _ => .ok x
  | declaration x _ _ _ => .ok x
  | _ => n.lacks "name"

/-- The type that a node names. -/
def typeName (n : Node) : Except Fault String :=
  match n with
  | empty _ => .ok "none"
  | literal kind _ _ =>
    match kind.typeName? with
    | some type => .ok type
    | none => n.lacks "type"
  | declaration _ type _ _ => .ok type
  | _ => n.lacks "type"

/-- The value that a node has or sets. -/
def value (n : Node) : Except Fault Node :=
  match n with
  | empty _ => .ok (raw .noneValue)
  | literal _ v _ => .ok (raw v)
  | assignment _ v => .ok v
  | declaration _ _ _ v => .ok v
  | _ => n.lacks "value"

/-- Whether a declared variable may be assigned to. -/
def isMutable (n : Node) : Except Fault Bool :=
  match n with
  | declaration _ _ m _ => .ok m
  | _ => n.lacks "mutable"

/-- The scope of a block or program. -/
def scope (n : Node) : Except Fault ScopeId :=
  match n with
  | block _ i | program _ i => .ok i
  | _ => n.lacks "scope"

/-- The statements of a block or program. -/
def statements (n : Node) : Except Fault (List Node) :=
  match n with
  | block ss _ | program ss _ => .ok ss
  | _ => n.lacks "statements"

/-! ## Making a node of others -/

/-- An expression behind a sign. -/
def mkSigned (op : Sign) (o : Node) : Except Fault Node :=
  o.pos.map fun _ => signed op o

/-- The negation of an expression. -/
def mkNegation (o : Node) : Except Fault Node :=
  o.pos.map fun _ => negation o

/-- Two expressions joined by `and` or `or`. -/
def mkLogic (op : Logic) (l r : Node) : Except Fault Node :=
  l.pos.map fun _ => logic op l r

/-- A comparison of two expressions. -/
def mkComparison (op : Comparison) (l r : Node) : Except Fault Node :=
  l.pos.map fun _ => comparison op l r

/-- An arithmetic operation on two expressions. -/
def mkArithmetic (op : Arithmetic) (l r : Node) : Except Fault Node :=
  l.pos.map fun _ => arithmetic op l r

/-- An assignment. -/
def mkAssignment (x : String) (v : Node) : Except Fault Node :=
  v.pos.map fun _ => assignment x v

/-- A declaration. -/
def mkDeclaration (x type : String) (m : Bool) (v : Node) : Except Fault Node :=
  v.pos.map fun _ => declaration x type m v

/-! ## The scopes in a program -/

mutual

/-- The scopes of a node and of the blocks in it, in the order of the text. -/
def scopeIds : Node → List ScopeId
  | block ss i => i :: scopeIdsAll ss
  | program ss i => i :: scopeIdsAll ss
  | conditional branches o => scopeIdsBranches branches ++ scopeIds o
  | otherwise b => scopeIds b
  | loop _ b => scopeIds b
  | _ => []

/-- The scopes in a list of nodes. -/
def scopeIdsAll : List Node → List ScopeId
  | [] => []
  | n :: rest => scopeIds n ++ scopeIdsAll rest

/-- The scopes in the blocks of a list of branches. -/
def scopeIdsBranches : List (Node × Node) → List ScopeId
  | [] => []
  | (_, b) :: rest => scopeIds b ++ scopeIdsBranches rest

end

end Node

end Scriptlet
