import Scriptlet.Node
import Scriptlet.Outline

/-! # Nodes as outlines

The tree of a program drawn as an outline: an entry for every node, its simple properties as
attributes, its parts as entries inside. The scope of a block is an entry too, with the scopes it
lies in.
-/
namespace Scriptlet

/-- A property of a node: a field, or an entry of its own. -/
inductive OutlinePart where
  /-- A property with a name and a value. -/
  | field (name text : String)
  /-- A part that is an entry. -/
  | child (o : Outline)

namespace OutlinePart

/-- An entry with the given properties, in order. -/
def assemble (title : String) (parts : List OutlinePart) : Outline :=
  .entry title
    (parts.filterMap fun
      | field name text => some (name ++ ": " ++ text)
      | child _ => none)
    (parts.filterMap fun
      | field .. => none
      | child o => some o)

/-- A value as a property; the value of `none` is an entry of its own. -/
def ofValue (name : String) : Value → OutlinePart
  | .noneValue => child (.entry "NoneValue" [] [])
  | v => field name v.text

/-- The two properties that say where a node stands. -/
def place (p : Option Pos) : List OutlinePart :=
  match p with
  | some p => [field "line" (toString p.line), field "column" (toString p.column)]
  | none => []

/-- The property that says how messages name a node. -/
def labelOf (n : Node) : List OutlinePart :=
  match n.label with
  | .ok text => [field "label" text]
  | .error _ => []

end OutlinePart

/-- The outline of a chain of scopes. -/
def Scopes.outlineChain (s : Scopes) : List ScopeId → Outline
  | [] => .entry "Enviroment" ["parent: None", "scope: \x7b\x7d"] []
  | [i] => .entry "Enviroment" ["parent: None", "scope: " ++ s.bindingsText i] []
  | i :: outer => .entry "Enviroment" ["scope: " ++ s.bindingsText i] [s.outlineChain outer]

/-- The outline of a scope, with the scopes it lies in. -/
def Scopes.outline (s : Scopes) (i : ScopeId) : Outline :=
  s.outlineChain (s.chain i)

namespace Node

open OutlinePart

mutual

/-- A node as a property of another one. -/
def outlinePart (s : Scopes) (name : String) : Node → OutlinePart
  | raw v => ofValue name v
  | empty p =>
    child (assemble "NoneNode" (ofValue "value" .noneValue :: field "type" "none" :: place p))
  | literal kind v p =>
    let type := match kind.typeName? with
      | some t => [field "type" t]
      | none => []
    child (assemble kind.name
      (ofValue "value" v :: type ++ place p ++ labelOf (literal kind v p)))
  | identifier x p =>
    child (assemble "VariableNode"
      (field "name" x :: place p ++ labelOf (identifier x p)))
  | signed op o =>
    child (assemble "UnaryNode"
      ([field "operator" op.symbol, outlinePart s "node" o]
        ++ place o.pos? ++ labelOf (signed op o)))
  | negation o =>
    child (assemble "NotBooleanNode"
      (outlinePart s "node" o :: place o.pos? ++ labelOf (negation o)))
  | logic op l r =>
    child (assemble "BooleanOpNode"
      ([outlinePart s "left" l, field "operator" op.symbol, outlinePart s "right" r]
        ++ place l.pos? ++ labelOf (logic op l r)))
  | comparison op l r =>
    child (assemble "ComparisonOpNode"
      ([outlinePart s "left" l, field "operator" op.symbol, outlinePart s "right" r]
        ++ place l.pos? ++ labelOf (comparison op l r)))
  | arithmetic op l r =>
    child (assemble "BinaryOpNode"
      ([outlinePart s "left" l, field "operator" op.symbol, outlinePart s "right" r]
        ++ place l.pos? ++ labelOf (arithmetic op l r)))
  | assignment x v =>
    child (assemble "AssignmentNode"
      ([field "name" x, outlinePart s "value" v] ++ place v.pos?))
  | declaration x type m v =>
    child (assemble "DeclarationNode"
      ([field "name" x, field "type" type, outlinePart s "value" v] ++ place v.pos?
        ++ [field "mutable" (Value.boolText m)]))
  | call callee arguments =>
    child (assemble "CallNode" (field "calle" callee :: outlineParts s "args" arguments))
  | otherwise b => child (assemble "ElseNode" [outlinePart s "block" b])
  | conditional branches o =>
    child (assemble "IfNode" (outlineBranches s branches ++ [outlinePart s "else_node" o]))
  | loop c b =>
    child (assemble "WhileNode" [outlinePart s "condition" c, outlinePart s "block" b])
  | block ss i =>
    child (assemble "BlockNode" (outlineParts s "statements" ss ++ [child (s.outline i)]))
  | program ss i =>
    child (assemble "ProgramNode" (outlineParts s "statements" ss ++ [child (s.outline i)]))
  | breakLoop => child (assemble "BreakStatement" [])
  | continueLoop => child (assemble "ContinueStatement" [])
  | bare => child (assemble "Node" [])

/-- The nodes of a list as properties of another one. -/
def outlineParts (s : Scopes) (name : String) : List Node → List OutlinePart
  | [] => []
  | n :: rest => outlinePart s name n :: outlineParts s name rest

/-- The branches of a conditional statement as properties of it. -/
def outlineBranches (s : Scopes) : List (Node × Node) → List OutlinePart
  | [] => []
  | (c, b) :: rest =>
    outlinePart s "branches (val)" c :: outlinePart s "branches (val)" b :: outlineBranches s rest

end

/-- The drawing of a node. Nothing is drawn for the absent value, and of any other value only its
kind: that it has no parts is a fault. -/
def drawing (s : Scopes) (n : Node) : String × Option Fault :=
  match n with
  | raw .absent => ("", none)
  | raw .noneValue => ((Outline.entry "NoneValue" [] []).text, none)
  | raw v => ((Outline.entry v.kind [] []).text, some .noParts)
  | n =>
    match outlinePart s "" n with
    | .child o => (o.text, none)
    | .field _ text => (text, none)

end Node

end Scriptlet
