import Scriptlet.Node

/-! # Nodes on one line

A node can be shown on one line, with its parts inside. Some kinds of nodes cannot be shown: `break`
and `continue`, and whatever has no particular kind. A loop shows its condition only.

Nodes of any depth are shown. A host whose calls may only nest to a fixed depth, and which gives up
on deeper nodes, is not modelled.
-/
namespace Scriptlet.Node

/-- How the scope of a block is shown. -/
def scopeText : String :=
  "<akorn.enviroment.enviroment.Enviroment object at 0x0>"

/-- The text of a literal of the given kind. -/
def literalText (kind : LiteralKind) (value : Value) : Except Fault String :=
  match kind with
  | .plain => .error (.unshowable "Node")
  | .string => .ok s!"<{kind.name} value=\"{value.text}\">"
  | _ => .ok s!"<{kind.name} value={value.text}>"

/-- A list of texts between brackets. -/
def bracketed (items : List String) : String :=
  "[" ++ ", ".intercalate items ++ "]"

mutual

/-- A node on one line. -/
def shown : Node → Except Fault String
  | empty _ => .ok "NoneNode"
  | literal kind value _ => literalText kind value
  | identifier name _ => .ok s!"<VariableNode name={name}>"
  | signed op operand => do
    let inner ← shown operand
    return s!"<UnaryNode operator={op.symbol} value={inner})>"
  | negation operand => do
    let inner ← shown operand
    return s!"<NotBooleanNode value={inner}"
  | logic op left right => do
    let l ← shown left
    let r ← shown right
    return s!"<BooleanOpNode left={l} operator={op.symbol}, right={r}"
  | comparison op left right => do
    let l ← shown left
    let r ← shown right
    return s!"<ComparisonOpNode left={l} operator={op.symbol} right={r}"
  | arithmetic op left right => do
    let l ← shown left
    let r ← shown right
    return s!"<BinaryOpNode left={l} operator={op.symbol} right={r}>"
  | assignment name value => do
    let v ← shown value
    return s!"<AssignmentNode name={name} value={v}>"
  | declaration name type _ value => do
    let v ← shown value
    return s!"<DeclarationNode type={type} name={name} value={v}>"
  | call callee arguments => do
    let items ← shownAll arguments
    return s!"<CallNode calle={callee} args={bracketed items}"
  | otherwise body => do
    let b ← shown body
    return s!"<ElseNode statements={b}"
  | conditional branches orElse => do
    let items ← shownBranches branches
    let o ← shown orElse
    return s!"<IfNode branches={bracketed items} else={o}>"
  | loop condition _ => do
    let c ← shown condition
    return s!"<WhileNode, condition={c}>"
  | block statements _ => do
    let items ← shownAll statements
    return s!"BlockNode statements={bracketed items} scope={scopeText}"
  | program statements _ => do
    let items ← shownAll statements
    return s!"<ProgramNode statements={bracketed items}>"
  | breakLoop => .error (.unshowable "BreakStatement")
  | continueLoop => .error (.unshowable "ContinueStatement")
  | bare => .error (.unshowable "Node")
  | raw value => .ok value.text

/-- The nodes of a list, each as it is shown inside a list: values are quoted. -/
def shownAll : List Node → Except Fault (List String)
  | [] => .ok []
  | raw value :: rest => do
    let more ← shownAll rest
    return value.quoted :: more
  | n :: rest => do
    let first ← shown n
    let more ← shownAll rest
    return first :: more

/-- The branches of a conditional statement, each as a pair. -/
def shownBranches : List (Node × Node) → Except Fault (List String)
  | [] => .ok []
  | (condition, body) :: rest => do
    let c ← match condition with
      | raw value => pure value.quoted
      | n => shown n
    let b ← match body with
      | raw value => pure value.quoted
      | n => shown n
    let more ← shownBranches rest
    return s!"({c}, {b})" :: more

end

/-- A node as it is shown on its own: a value is quoted. -/
def quoted : Node → Except Fault String
  | raw value => .ok value.quoted
  | n => n.shown

/-- What the kind of a node is shown as, without looking at a node of it. -/
def shownKind (n : Node) : Except Fault String :=
  match n with
  | breakLoop => .ok "<BreakStatement"
  | continueLoop => .ok "<ContinueStatement>"
  | bare | literal .plain _ _ => .ok "<Node>"
  | _ => .error (.unshowableKind n.kindName)

end Scriptlet.Node
