/-! # Outlines

An outline is a tree of titled entries. Each entry is drawn on a line of its own, behind a branch;
its attributes follow, and below them the entries inside it.
-/
namespace Scriptlet

/-- An entry of an outline. -/
inductive Outline where
  /-- An entry with its title, its attributes and the entries inside it. -/
  | entry (title : String) (attributes : List String) (children : List Outline)

namespace Outline

/-- The line of an attribute. -/
def attributeLine (indent text : String) : String :=
  indent ++ "├── " ++ text ++ "\n"

mutual

/-- Draws an entry; the last one of its siblings has a branch of its own. -/
def draw (indent : String) (isLast : Bool) : Outline → String
  | entry title attributes children =>
    let branch := if isLast then "└── " else "├── "
    let inner := indent ++ (if isLast then "    " else "│   ")
    indent ++ branch ++ title ++ "\n"
      ++ String.join (attributes.map (attributeLine inner)) ++ drawAll inner children

/-- Draws the entries inside another one. -/
def drawAll (indent : String) : List Outline → String
  | [] => ""
  | child :: rest => draw indent rest.isEmpty child ++ drawAll indent rest

end

/-- The drawing of a whole outline. -/
def text (o : Outline) : String :=
  o.draw "" true

end Outline

end Scriptlet
