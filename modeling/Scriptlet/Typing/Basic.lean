import Scriptlet.Diagnostic
import Scriptlet.Node

/-! # Checking

The checker goes through a program before it is run. It reports what does not fit, and records in
the scopes what is declared. Types are told apart by their names; besides the names of declared
types there are three more: a variable can be *unknown*, or *empty* because it was declared without
a value, and the type of an expression is *unsettled* until a part of it is seen.
-/
namespace Scriptlet

/-- Checking in progress. -/
structure CheckState where
  /-- The scopes, with the symbols recorded so far. -/
  scopes : Scopes
  /-- The problems found so far. -/
  reports : List Diagnostic := []

/-- A check: it gives a result or a fault, and the state it reached in either case. -/
abbrev Check := EStateM Fault CheckState

namespace Check

/-- The type of a variable that no scope binds. -/
def unknownType : String := "non-existent"

/-- The type of a variable without a value. -/
def emptyType : String := "none"

/-- The expected type where none is settled. -/
def unsettledType : String := "undefined"

/-- A result that does not depend on the state. -/
def ofExcept {α : Type} (e : Except Fault α) : Check α :=
  match e with
  | .ok a => pure a
  | .error fault => throw fault

/-- Reports a problem at the place of a node. -/
def report (problem : TypeProblem) (n : Node) : Check Unit := do
  let p ← ofExcept n.pos
  modify fun s => { s with reports := s.reports ++ [.typing problem p] }

/-- The type of a variable, seen from a scope. It is a fault if the variable holds something else
than a symbol. -/
def variableType (scope : ScopeId) (name : String) : Check String := do
  match (← get).scopes.get? scope name with
  | none => return unknownType
  | some (.symbol s) => return if s.isNone then emptyType else s.typeName
  | some v => throw (.missingField v.kind "is_none")

/-- Binds a name in a scope. -/
def define (scope : ScopeId) (name : String) (value : Value) : Check Unit :=
  modify fun s => { s with scopes := s.scopes.define scope name value }

end Check

end Scriptlet
