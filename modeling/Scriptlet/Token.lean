import Scriptlet.Value.Text

/-! # Tokens

The words of a program: what kind of word it is, what it says, and where it stands. A line break is
a token of its own, because it can end a statement, and the last token of a program marks its end.
-/
namespace Scriptlet

/-- A place in a source text. The lines and columns that a scan counts are never negative; those of
a tree that was made by hand may be. -/
structure Pos where
  /-- The line, counted from one. -/
  line : Int
  /-- The column, counted from zero. -/
  column : Int
deriving DecidableEq, Repr, Inhabited

/-- The place that stands for the end of the text. -/
def Pos.none : Pos :=
  ⟨0, 0⟩

/-- What kind of word a token is. -/
inductive TokenKind where
  | intWord | floatWord | boolWord | stringWord
  | varWord | letWord
  | ifWord | elseWord | elifWord
  | whileWord | loopWord | breakWord | continueWord
  | plus | plusAssign | minus | minusAssign | star | starAssign | doubleStar | doubleStarAssign
  | percent | percentAssign | slash | slashAssign | assign
  | equal | greater | greaterEqual | less | lessEqual | different
  | andWord | orWord | notWord
  | semicolon | comma | newline
  | leftParen | rightParen | leftBrace | rightBrace
  | identifier
  | number | text | trueWord | falseWord
  | noneWord
  | endOfFile
deriving DecidableEq, Repr, Inhabited

namespace TokenKind

/-- All kinds of tokens with the names under which they are listed. -/
def names : List (TokenKind × String) :=
  [(intWord, "INT"), (floatWord, "FLOAT"), (boolWord, "BOOL"), (stringWord, "STRING"),
   (varWord, "VAR"), (letWord, "LET"),
   (ifWord, "IF"), (elseWord, "ELSE"), (elifWord, "ELIF"),
   (whileWord, "WHILE"), (loopWord, "LOOP"), (breakWord, "BREAK"), (continueWord, "CONTINUE"),
   (plus, "PLUS"), (plusAssign, "PLUS_ASSIGN"), (minus, "MINUS"), (minusAssign, "MINUS_ASSIGN"),
   (star, "STAR"), (starAssign, "STAR_ASSIGN"), (doubleStar, "DOUBLE_STAR"),
   (doubleStarAssign, "DOUBLE_STAR_ASSIGN"), (percent, "MOD"), (percentAssign, "MOD_ASSIGN"),
   (slash, "SLASH"), (slashAssign, "SLASH_ASSIGN"), (assign, "ASSIGN"),
   (equal, "EQUAL"), (greater, "GREATER"), (greaterEqual, "GREATER_EQUAL"), (less, "LESS"),
   (lessEqual, "LESS_EQUAL"), (different, "DIFERENT"),
   (andWord, "AND"), (orWord, "OR"), (notWord, "NOT"),
   (semicolon, "SEMICOLON"), (comma, "COMMA"), (newline, "NEWLINE"),
   (leftParen, "LPAREN"), (rightParen, "RPAREN"), (leftBrace, "LBRACE"), (rightBrace, "RBRACE"),
   (identifier, "IDENT"),
   (number, "NUMBER"), (text, "STRING_LITERAL"), (trueWord, "TRUE"), (falseWord, "FALSE"),
   (noneWord, "NONE"), (endOfFile, "EOF")]

/-- The name under which a kind of token is listed. -/
def name (k : TokenKind) : String :=
  (names.lookup k).getD ""

/-- The kind of token that is listed under a name. -/
def ofName? (s : String) : Option TokenKind :=
  (names.find? fun entry => entry.2 = s).map Prod.fst

end TokenKind

/-- What a token says. -/
inductive TokenContent where
  /-- Nothing: the end of the text. -/
  | nothing
  /-- The text of a word, a sign or a literal. -/
  | text (s : String)
  /-- An integer literal. -/
  | int (n : Int)
  /-- A floating-point literal. -/
  | float (x : Float)
deriving DecidableEq, Repr, Inhabited

/-- The content of a token as a value. -/
def TokenContent.value : TokenContent → Value
  | nothing => .absent
  | text s => .str s
  | int n => .int n
  | float x => .float x

/-- A word of a program. -/
structure Token where
  /-- What kind of word it is. -/
  kind : TokenKind
  /-- What it says. -/
  content : TokenContent
  /-- Where it stands. -/
  pos : Pos
deriving DecidableEq, Repr, Inhabited

namespace Token

/-- The token that marks the end of a program. -/
def endOfFile : Token :=
  ⟨.endOfFile, .nothing, Pos.none⟩

/-- A semicolon at the given place. -/
def semicolonAt (p : Pos) : Token :=
  ⟨.semicolon, .text ";", p⟩

/-- What a token says, as text. -/
def text (t : Token) : String :=
  t.content.value.text

/-- A token as it is listed. -/
def describe (t : Token) : String :=
  s!"Token(type=TokenType.{t.kind.name}, value='{t.text}', line={t.pos.line}, "
    ++ s!"column={t.pos.column})"

end Token

end Scriptlet
