import Scriptlet.Token.Cursor

/-! # The ends of statements

A program ends its statements either by line breaks or by semicolons, and keeps to one style. A
line break ends a statement if it stands behind a word that can end one, outside of parentheses,
and not before an opening brace; it then becomes a semicolon, and all other line breaks disappear.
The first terminator found settles the style. In a program without semicolons a last statement is
ended by the end of the text.

A terminator in the wrong style or in the wrong place is reported. The token behind it is then
passed over, or taken for the terminator; so a problem at the very end of a program can lead out
of the list of tokens, which is a fault.
-/
namespace Scriptlet

/-- The two ways to end statements. -/
inductive TerminatorStyle where
  /-- By line breaks. -/
  | newlines
  /-- By semicolons. -/
  | semicolons
deriving DecidableEq, Repr

/-- The kinds of tokens that can end a statement. -/
def TokenKind.endsStatement : TokenKind → Bool
  | .number | .text | .identifier | .trueWord | .falseWord | .rightParen | .continueWord
  | .breakWord => true
  | _ => false

/-- The outcome of normalizing the terminators of a list of tokens. -/
structure Normalized where
  /-- The tokens, as far as they have been changed. -/
  tokens : List Token
  /-- Where the work ended. -/
  index : Nat
  /-- The problems found. -/
  reports : List Diagnostic
  /-- The fault that stopped the work, if any. -/
  fault : Option Fault

/-- Work in progress on the terminators. -/
structure TerminatorWalk where
  /-- The tokens that are settled, the last one first. -/
  settled : List Token := []
  /-- How many parentheses are open. -/
  depth : Nat := 0
  /-- The style, once a terminator has been found. -/
  style : Option TerminatorStyle := none
  /-- The problems found so far. -/
  reports : List Diagnostic := []

namespace TerminatorWalk

/-- Settles one more token. -/
def settle (w : TerminatorWalk) (t : Token) : TerminatorWalk :=
  { w with settled := t :: w.settled }

/-- Records a problem. -/
def report (w : TerminatorWalk) (problem : TerminatorProblem) (p : Pos) : TerminatorWalk :=
  { w with reports := w.reports ++ [.terminator problem p] }

/-- The token before those that are not settled; before the first one stands the last one. -/
def previous? (w : TerminatorWalk) (rest : List Token) : Option Token :=
  match w.settled with
  | t :: _ => some t
  | [] => rest.getLast?

/-- Whether a statement can end before the tokens that are not settled. -/
def canEnd (w : TerminatorWalk) (rest : List Token) : Bool :=
  (w.previous? rest).any fun t => t.kind.endsStatement

/-- Stops with a fault, `behind` places behind the settled tokens. -/
def stop (w : TerminatorWalk) (rest : List Token) (behind : Nat) : Normalized :=
  ⟨w.settled.reverse ++ rest, w.settled.length + behind, w.reports, some .outOfRange⟩

/-- The end of the program is reached at the token `last`: a last statement without a terminator
gets one, unless semicolons are used. -/
def finish (w : TerminatorWalk) (last : Token) (rest : List Token) : Normalized :=
  let tokens :=
    match w.previous? (last :: rest) with
    | some t =>
      if w.style ≠ some .semicolons ∧ t.kind.endsStatement then
        let added := Token.semicolonAt ⟨t.pos.line, t.pos.column + 1⟩
        w.settled.reverse ++ added :: rest ++ [last]
      else w.settled.reverse ++ last :: rest
    | none => w.settled.reverse ++ last :: rest
  ⟨tokens, w.settled.length, w.reports, none⟩

/-- What is wrong with a semicolon at this place, if anything. -/
def semicolonProblem? (w : TerminatorWalk) (rest : List Token) : Option TerminatorProblem :=
  if 0 < w.depth then some .insideParentheses
  else if w.style = some .newlines then some .mixedStyles
  else if !w.canEnd rest then some .misplaced
  else none

/-- Goes through the tokens that are not settled. -/
def run (w : TerminatorWalk) : List Token → Normalized
  | [] => w.stop [] 0
  | t :: rest =>
    match t.kind with
    | .endOfFile => w.finish t rest
    | .newline =>
      if w.depth = 0 ∧ w.canEnd (t :: rest) then
        match rest with
        | [] => w.stop [t] 0
        | next :: rest' =>
          if next.kind = .leftBrace then run w (next :: rest')
          else if w.style = some .semicolons then
            run (((w.report .mixedStyles t.pos).settle t).settle (Token.semicolonAt next.pos)) rest'
          else
            run { w.settle (Token.semicolonAt t.pos) with style := some .newlines } (next :: rest')
      else run w rest
    | .leftParen => run { w.settle t with depth := w.depth + 1 } rest
    | .rightParen => run { w.settle t with depth := w.depth - 1 } rest
    | .semicolon =>
      match w.semicolonProblem? (t :: rest) with
      | none => run { w.settle t with style := some .semicolons } rest
      | some problem =>
        let w := w.report problem t.pos
        match rest with
        | [] => w.stop [t] 2
        | next :: rest' => run ((w.settle t).settle next) rest'
    | _ => run (w.settle t) rest

end TerminatorWalk

/-- **Normalizes the terminators** of a list of tokens: every statement ends with a semicolon, and
there are no line breaks. -/
def normalize (tokens : List Token) : Normalized :=
  ({} : TerminatorWalk).run tokens

/-- Normalizes the terminators from a place in the list on. -/
def Cursor.normalizeFrom (c : Cursor) : Normalized :=
  let walk : TerminatorWalk := { settled := (c.tokens.toList.take c.index).reverse }
  if c.tokens.size < c.index then ⟨c.tokens.toList, c.index, [], some .outOfRange⟩
  else walk.run (c.tokens.toList.drop c.index)

end Scriptlet
