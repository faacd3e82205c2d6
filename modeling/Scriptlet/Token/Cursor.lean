import Scriptlet.Diagnostic

/-! # A place in a list of tokens

Both the search for the ends of statements and the grammar look at tokens around a current index.
Indices before the first token count from the end of the list: the token before the first one is
the last one, which marks the end of the program.
-/
namespace Scriptlet

/-- A list of tokens and a place in it. -/
structure Cursor where
  /-- The tokens. -/
  tokens : Array Token
  /-- The current index. -/
  index : Nat := 0
deriving Inhabited

namespace Cursor

/-- The token `offset` places from the current one, counted from the end if that lies before the
first token. -/
def get (c : Cursor) (offset : Int) : Except Fault Token :=
  let i : Int := c.index + offset
  let i := if i < 0 then i + c.tokens.size else i
  if i < 0 then .error .outOfRange
  else
    match c.tokens[i.toNat]? with
    | some t => .ok t
    | none => .error .outOfRange

/-- The current token. -/
def current (c : Cursor) : Except Fault Token :=
  match c.tokens[c.index]? with
  | some t => .ok t
  | none => .error .outOfRange

/-- The token before the current one. -/
def previous (c : Cursor) : Except Fault Token :=
  c.get (-1)

/-- The token `offset` places on, or none behind the last token. -/
def peek (c : Cursor) (offset : Int) : Except Fault (Option Token) :=
  if (c.tokens.size : Int) ≤ c.index + offset then .ok none else (c.get offset).map some

/-- Whether the current token marks the end. -/
def atEnd (c : Cursor) : Except Fault Bool :=
  c.current.map fun t => t.kind = .endOfFile

/-- The kind of the token `offset` places on; `none` counts as the kind of what lies more than one
place behind the last token. -/
def peekKind (c : Cursor) (offset : Int) : Except Fault TokenKind :=
  if (c.tokens.size : Int) < c.index + offset then .ok .noneWord
  else (c.get offset).map Token.kind

end Cursor

end Scriptlet
