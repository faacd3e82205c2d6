import Scriptlet.Command.Folder
import Scriptlet.Command.Session
import Scriptlet.Decimal.Binary
import Scriptlet.Decimal.Layout
import Scriptlet.Decimal.Reading
import Scriptlet.Decimal.Shortest
import Scriptlet.Diagnostic
import Scriptlet.Execution.Basic
import Scriptlet.Execution.Builtin
import Scriptlet.Execution.Expression
import Scriptlet.Execution.Parts
import Scriptlet.Execution.Statement
import Scriptlet.Fault
import Scriptlet.Grammar
import Scriptlet.Main
import Scriptlet.Node
import Scriptlet.Node.Outline
import Scriptlet.Node.Show
import Scriptlet.Outline
import Scriptlet.Proofs.Acceptance
import Scriptlet.Proofs.AcceptanceCompleteness
import Scriptlet.Proofs.Asking
import Scriptlet.Proofs.BlankLines
import Scriptlet.Proofs.CheckOutcome
import Scriptlet.Proofs.CheckSpec
import Scriptlet.Proofs.CheckSteps
import Scriptlet.Proofs.CheckedParts
import Scriptlet.Proofs.CheckedRun
import Scriptlet.Proofs.CheckedTypes
import Scriptlet.Proofs.CheckedWrites
import Scriptlet.Proofs.ChecksAlike
import Scriptlet.Proofs.Columns
import Scriptlet.Proofs.DeadCode
import Scriptlet.Proofs.Dialogue
import Scriptlet.Proofs.Division
import Scriptlet.Proofs.ElseIf
import Scriptlet.Proofs.EndOfText
import Scriptlet.Proofs.EqualitySides
import Scriptlet.Proofs.Evaluation
import Scriptlet.Proofs.ExposedCalls
import Scriptlet.Proofs.ExpressionCompleteness
import Scriptlet.Proofs.ExpressionGrammar
import Scriptlet.Proofs.ExpressionReading
import Scriptlet.Proofs.ExpressionSoundness
import Scriptlet.Proofs.FlatStore
import Scriptlet.Proofs.Irrelevance
import Scriptlet.Proofs.LeftSpine
import Scriptlet.Proofs.LexicalGrammar
import Scriptlet.Proofs.LineNumbers
import Scriptlet.Proofs.LineSeam
import Scriptlet.Proofs.LocalRecovery
import Scriptlet.Proofs.Mentions
import Scriptlet.Proofs.MistakePlaces
import Scriptlet.Proofs.NormalForm
import Scriptlet.Proofs.NumberKinds
import Scriptlet.Proofs.OptionalSemicolons
import Scriptlet.Proofs.Pieces
import Scriptlet.Proofs.ReadTrees
import Scriptlet.Proofs.Reader
import Scriptlet.Proofs.ReaderBudget
import Scriptlet.Proofs.ReaderCalls
import Scriptlet.Proofs.ReaderProgress
import Scriptlet.Proofs.ReadingFaults
import Scriptlet.Proofs.Renormalizing
import Scriptlet.Proofs.RunCommand
import Scriptlet.Proofs.RunReports
import Scriptlet.Proofs.RunRules
import Scriptlet.Proofs.RunSteps
import Scriptlet.Proofs.ScanRules
import Scriptlet.Proofs.ScopeLaws
import Scriptlet.Proofs.ScopeNames
import Scriptlet.Proofs.Script
import Scriptlet.Proofs.ScriptCommands
import Scriptlet.Proofs.ScriptReading
import Scriptlet.Proofs.Sequences
import Scriptlet.Proofs.Showing
import Scriptlet.Proofs.SideBySide
import Scriptlet.Proofs.SourceText
import Scriptlet.Proofs.StatementCompleteness
import Scriptlet.Proofs.StatementGrammar
import Scriptlet.Proofs.StatementPlaces
import Scriptlet.Proofs.StatementSoundness
import Scriptlet.Proofs.SurfaceForms
import Scriptlet.Proofs.TerminatorMistakes
import Scriptlet.Proofs.TerminatorSteps
import Scriptlet.Proofs.TerminatorStyles
import Scriptlet.Proofs.TokenGrammar
import Scriptlet.Proofs.TokenShape
import Scriptlet.Proofs.TreeShape
import Scriptlet.Proofs.TruthLeaves
import Scriptlet.Proofs.TypeRules
import Scriptlet.Proofs.TypeSoundness
import Scriptlet.Proofs.TypedEvaluation
import Scriptlet.Proofs.ValueFaults
import Scriptlet.Proofs.Verdicts
import Scriptlet.Proofs.Words
import Scriptlet.Proofs.WrittenTokens
import Scriptlet.Scope
import Scriptlet.Source
import Scriptlet.Text.Blank
import Scriptlet.Text.Digit
import Scriptlet.Text.Letter
import Scriptlet.Text.Numeral
import Scriptlet.Text.Parts
import Scriptlet.Text.Printable
import Scriptlet.Text.Quoted
import Scriptlet.Text.Ranges
import Scriptlet.Token
import Scriptlet.Token.Cursor
import Scriptlet.Token.Scan
import Scriptlet.Token.Terminator
import Scriptlet.Typing.Arithmetic
import Scriptlet.Typing.Basic
import Scriptlet.Typing.Condition
import Scriptlet.Typing.Program
import Scriptlet.Value
import Scriptlet.Value.Arithmetic
import Scriptlet.Value.Compare
import Scriptlet.Value.Complex
import Scriptlet.Value.Number
import Scriptlet.Value.Percent
import Scriptlet.Value.Text
import Scriptlet.Workload.Display
import Scriptlet.Workload.Execution
import Scriptlet.Workload.Program
import Scriptlet.Workload.Text
import Scriptlet.Workload.Typing
