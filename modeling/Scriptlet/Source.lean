import Scriptlet.Grammar
import Scriptlet.Token.Scan
import Scriptlet.Token.Terminator

/-! # From source text to program

Source text becomes tokens, the tokens are normalized, and the normalized tokens become a program.
Reading ends behind the first of these steps that leaves a report, unless it is forced to go on; a
fault ends it in any case. What is there at the end, of whichever step, is a `Reading`.
-/
namespace Scriptlet

/-- The steps of the work on a program. -/
inductive Stage where
  /-- Source text becomes tokens. -/
  | scanning
  /-- The terminators are normalized. -/
  | terminators
  /-- Tokens become a program. -/
  | grammar
  /-- The types are checked. -/
  | typing
  /-- The program is run. -/
  | running
  /-- All is done. -/
  | done
deriving DecidableEq, Repr, Inhabited

/-- A source text, as far as it has been read. -/
structure Reading where
  /-- The step that was made last. -/
  stage : Stage := .scanning
  /-- The tokens, as that step left them. -/
  tokens : List Token := []
  /-- What has been reported. -/
  reports : List Diagnostic := []
  /-- The fault that ended the step. -/
  fault : Option Fault := none
  /-- The program and its scopes, once the grammar has been applied. -/
  program : Option (Node × Scopes) := none

namespace Reading

/-- Whether the next step is made. -/
def goesOn (force : Bool) (r : Reading) : Bool :=
  r.fault.isNone && (force || r.reports.isEmpty)

/-- Source text becomes tokens. `earlier` is what was reported before. -/
def scan (earlier : List Diagnostic) (source : String) : Reading :=
  let result := Scriptlet.scan source
  { stage := .scanning
    tokens := result.scanner.tokens.toList
    reports := earlier ++ result.scanner.reports
    fault := result.fault }

/-- The terminators are normalized. -/
def normalize (r : Reading) : Reading :=
  let result := Scriptlet.normalize r.tokens
  { r with
    stage := .terminators
    tokens := result.tokens
    reports := r.reports ++ result.reports
    fault := result.fault }

/-- Tokens become a program. -/
def parse (r : Reading) : Reading :=
  match parseProgram r.tokens with
  | .ok n s =>
    { r with stage := .grammar, reports := r.reports ++ s.reports, program := some (n, s.scopes) }
  | .error fault s =>
    { r with stage := .grammar, reports := r.reports ++ s.reports, fault := some fault }

/-- Makes a step if the one before lets it. -/
def andThen (force : Bool) (r : Reading) (step : Reading → Reading) : Reading :=
  if r.goesOn force then step r else r

/-- **The normalized tokens of a source text**, as far as it could be read. -/
def ofTokens (force : Bool) (earlier : List Diagnostic) (source : String) : Reading :=
  (scan earlier source).andThen force normalize

/-- **The program of a source text**, as far as it could be read. -/
def ofSource (force : Bool) (earlier : List Diagnostic) (source : String) : Reading :=
  (ofTokens force earlier source).andThen force parse

/-- The program to work on with its scopes, if reading came so far and nothing forbids to go on. -/
def program? (force : Bool) (r : Reading) : Option (Node × Scopes) :=
  if r.goesOn force then r.program else none

end Reading

end Scriptlet
