import Scriptlet.Value.Text

/-! # Scopes

A program has a scope, and so has every block in it. A scope binds names to values, in the order in
which the names were first bound, and all but the outermost scope lie inside another one. A name is
looked for from the inside to the outside; the scopes on that way are the *chain* of a scope.

All scopes of a program are kept together as numbered frames, so that a block only needs to know
the number of its own. A frame is always opened after the one it lies in.
-/
namespace Scriptlet

/-- Names and their values, in the order in which the names were first bound. -/
abbrev Bindings := List (String × Value)

namespace Bindings

/-- Binds a name. A name that is bound already keeps its place. -/
def put (name : String) (value : Value) : Bindings → Bindings
  | [] => [(name, value)]
  | (n, v) :: rest =>
    if n = name then (name, value) :: rest else (n, v) :: Bindings.put name value rest

/-- The value that a name is bound to. -/
def get? (b : Bindings) (name : String) : Option Value :=
  b.lookup name

/-- Whether a name is bound. -/
def binds (b : Bindings) (name : String) : Bool :=
  (b.get? name).isSome

end Bindings

/-- The number of a scope. -/
abbrev ScopeId := Nat

/-- One scope. -/
structure Frame where
  /-- The scope that it lies in. -/
  parent : Option ScopeId := none
  /-- The names that it binds itself. -/
  bindings : Bindings := []
deriving Inhabited

/-- All scopes of a program, by number. -/
structure Scopes where
  /-- The frames in the order in which they were opened. -/
  frames : Array Frame := #[{}]
deriving Inhabited

namespace Scopes

/-- The number of the outermost scope. -/
def root : ScopeId := 0

/-- Opens a scope inside `parent`, and gives its number. -/
def openIn (s : Scopes) (parent : ScopeId) : Scopes × ScopeId :=
  (⟨s.frames.push { parent := some parent }⟩, s.frames.size)

/-- The names that a scope binds itself. -/
def bindings (s : Scopes) (i : ScopeId) : Bindings :=
  match s.frames[i]? with
  | some frame => frame.bindings
  | none => []

/-- The scope that a scope lies in. -/
def parent? (s : Scopes) (i : ScopeId) : Option ScopeId :=
  match s.frames[i]? with
  | some frame => frame.parent
  | none => none

/-- A scope and those that it lies in, from the inside to the outside. -/
def chain (s : Scopes) (i : ScopeId) : List ScopeId :=
  i :: match s.parent? i with
    | some p => if p < i then s.chain p else []
    | none => []
termination_by i

/-- Binds a name in the given scope itself. -/
def define (s : Scopes) (i : ScopeId) (name : String) (value : Value) : Scopes :=
  ⟨s.frames.modify i fun frame => { frame with bindings := frame.bindings.put name value }⟩

/-- The innermost scope of the chain that binds the name. -/
def owner? (s : Scopes) (i : ScopeId) (name : String) : Option ScopeId :=
  (s.chain i).find? fun j => (s.bindings j).binds name

/-- The value of a name, seen from a scope. -/
def get? (s : Scopes) (i : ScopeId) (name : String) : Option Value :=
  (s.owner? i name).bind fun j => (s.bindings j).get? name

/-- Whether a name is bound, seen from a scope. -/
def binds (s : Scopes) (i : ScopeId) (name : String) : Bool :=
  (s.owner? i name).isSome

/-- Gives a name another value where it is bound, seen from a scope; a name that is not bound stays
so. -/
def assign (s : Scopes) (i : ScopeId) (name : String) (value : Value) : Scopes :=
  match s.owner? i name with
  | some j => s.define j name value
  | none => s

/-- The bindings of a scope as they are shown. -/
def bindingsText (s : Scopes) (i : ScopeId) : String :=
  (Value.record (s.bindings i)).quoted

/-! ## Listing records

A scope whose values are records can be listed, one record after the other. -/

/-- The listing of one name, and the fault that its value is no record. -/
def listBinding (name : String) (value : Value) : String × Option Fault :=
  let opening := name ++ ":\x7b\n"
  match value with
  | .record fields =>
    let lines := fields.map fun (field, v) => "    " ++ field ++ " : " ++ v.text ++ "\n"
    (opening ++ String.join lines ++ "\x7d\n", none)
  | _ => (opening, some (.missingField value.kind "keys"))

/-- The listing of a list of names, up to the first fault. -/
def listBindings : Bindings → String × Option Fault
  | [] => ("", none)
  | (name, value) :: rest =>
    match listBinding name value with
    | (text, some fault) => (text, some fault)
    | (text, none) =>
      let (more, fault) := listBindings rest
      (text ++ more, fault)

/-- The listing of a scope. -/
def listing (s : Scopes) (i : ScopeId) : String × Option Fault :=
  listBindings (s.bindings i)

end Scopes

end Scriptlet
