import Scriptlet.Decimal.Reading
import Scriptlet.Diagnostic
import Scriptlet.Text.Numeral

/-! # From text to tokens

The scanner goes through a source text from left to right. At every step it passes over a blank or
a comment, or takes the longest word that begins at the current place. Line breaks inside comments
and text literals count as line breaks too.

Signs are recorded at the column where they begin, all longer words at the column behind them.

A character that begins no word is reported and passed over; so is a text literal or a comment
that is never closed. The only fault is a number written with digits that have no decimal value.
-/
namespace Scriptlet

open Text

/-- A scan in progress. -/
structure Scanner where
  /-- The text that has not been read. -/
  rest : List Char
  /-- How many characters have been read. -/
  position : Nat := 0
  /-- The current line, counted from one. -/
  line : Nat := 1
  /-- The current column, counted from zero. -/
  column : Nat := 0
  /-- The tokens found so far. -/
  tokens : Array Token := #[]
  /-- The problems found so far. -/
  reports : List Diagnostic := []

namespace Scanner

/-- The signs of the language. Where one is the beginning of another, the longer stands first. -/
def signs : List (String × TokenKind) :=
  [(";", .semicolon), (",", .comma), ("(", .leftParen), (")", .rightParen),
   ("\x7b", .leftBrace), ("\x7d", .rightBrace),
   ("+=", .plusAssign), ("+", .plus), ("-=", .minusAssign), ("-", .minus),
   ("**=", .doubleStarAssign), ("**", .doubleStar), ("*=", .starAssign), ("*", .star),
   ("/=", .slashAssign), ("/", .slash), ("%=", .percentAssign), ("%", .percent),
   ("==", .equal), ("=", .assign), ("<=", .lessEqual), ("<", .less),
   (">=", .greaterEqual), (">", .greater), ("!=", .different)]

/-- The words that are no names. -/
def keywords : List (String × TokenKind) :=
  [("var", .varWord), ("let", .letWord), ("int", .intWord), ("float", .floatWord),
   ("string", .stringWord), ("bool", .boolWord), ("true", .trueWord), ("false", .falseWord),
   ("if", .ifWord), ("else", .elseWord), ("elif", .elifWord), ("while", .whileWord),
   ("loop", .loopWord), ("break", .breakWord), ("continue", .continueWord), ("and", .andWord),
   ("or", .orWord), ("not", .notWord), ("none", .noneWord)]

/-- The current place. -/
def pos (s : Scanner) : Pos :=
  ⟨s.line, s.column⟩

/-- Passes over `n` characters of the current line. -/
def advance (s : Scanner) (n : Nat) : Scanner :=
  { s with rest := s.rest.drop n, position := s.position + n, column := s.column + n }

/-- Records a token at the current place. -/
def emit (s : Scanner) (kind : TokenKind) (content : TokenContent) : Scanner :=
  let p := s.pos
  { s with tokens := s.tokens.push ⟨kind, content, p⟩ }

/-- Records a problem at the current place. -/
def report (s : Scanner) (problem : ScanProblem) : Scanner :=
  { s with reports := s.reports ++ [.scan problem s.pos] }

/-- Records a line break and begins a new line. -/
def breakLine (s : Scanner) : Scanner :=
  let s := s.emit .newline (.text "\\n")
  { s with line := s.line + 1, column := 0 }

/-- Passes over a line break. -/
def skipNewline (s : Scanner) : Scanner :=
  (s.advance 1).breakLine

/-- Passes over the rest of a block comment, up to and including its end, where `cs` is what has
not been read. Inside a comment the new line begins before the break, so that the first column of
the next line is one. -/
def skipComment (s : Scanner) (cs : List Char) : Scanner :=
  match cs with
  | [] => s.report .unclosedComment
  | '*' :: '/' :: _ => s.advance 2
  | '\n' :: rest => skipComment (s.breakLine.advance 1) rest
  | _ :: rest => skipComment (s.advance 1) rest

/-- The text of a literal: a backslash before `n` makes a line break, one before `t` a
tabulator. -/
def unescape : List Char → List Char
  | '\\' :: 'n' :: rest => '\n' :: unescape rest
  | '\\' :: 't' :: rest => '\t' :: unescape rest
  | c :: rest => c :: unescape rest
  | [] => []

/-- Reads the rest of a text literal that `mark` closes, where `cs` is what has not been read and
`body` what has, in reverse. -/
def scanText (mark : Char) (body : List Char) (s : Scanner) (cs : List Char) : Scanner :=
  match cs with
  | [] => (s.report (.unclosedText mark)).advance 1
  | c :: rest =>
    if c = '\n' then scanText mark (c :: body) s.skipNewline rest
    else if c = mark then
      (s.advance 1).emit .text (.text (String.ofList (unescape body.reverse)))
    else scanText mark (c :: body) (s.advance 1) rest

/-- The characters of a number at the front of a text, and whether there is a fraction: digits,
and once a point between digits. -/
def numberLexeme (cs : List Char) : List Char × Bool :=
  let whole := cs.takeWhile isDigit
  match cs.dropWhile isDigit with
  | '.' :: d :: rest =>
    if isDigit d then (whole ++ '.' :: (d :: rest).takeWhile isDigit, true) else (whole, false)
  | _ => (whole, false)

/-- The content of a number. -/
def numberContent (lexeme : String) (fraction : Bool) : Except Fault TokenContent :=
  if fraction then
    match Decimal.readFloat? lexeme with
    | some x => .ok (.float x)
    | none => .error (.badFloat lexeme)
  else
    match Decimal.readInteger? lexeme with
    | some n => .ok (.int n)
    | none => .error (.badInteger lexeme)

/-- Reads a number. -/
def scanNumber (s : Scanner) : Scanner × Option Fault :=
  let (lexeme, fraction) := numberLexeme s.rest
  let s := s.advance lexeme.length
  match numberContent (String.ofList lexeme) fraction with
  | .ok content => (s.emit .number content, none)
  | .error fault => (s, some fault)

/-- Whether `c` may stand in a name, behind its first letter. -/
def isNamePart (c : Char) : Bool :=
  isAlphanumeric c || c = '_'

/-- Reads a name or a keyword. -/
def scanWord (s : Scanner) : Scanner :=
  let lexeme := s.rest.takeWhile isNamePart
  let word := String.ofList lexeme
  (s.advance lexeme.length).emit ((keywords.lookup word).getD .identifier) (.text word)

/-- How many characters a line comment has at the front of a text, the two slashes not counted. -/
def commentLength (cs : List Char) : Nat :=
  (cs.takeWhile (· ≠ '\n')).length

/-- One step: the first character that has not been read is `c`, and `cs` follows it. -/
def stepAt (s : Scanner) (c : Char) (cs : List Char) : Scanner × Option Fault :=
  if c = ' ' then (s.advance 1, none)
  else if c = '\n' then (s.skipNewline, none)
  else if c = '/' ∧ cs.head? = some '/' then (s.advance (2 + commentLength (cs.drop 1)), none)
  else if c = '/' ∧ cs.head? = some '*' then (skipComment (s.advance 2) (cs.drop 1), none)
  else
    match signs.find? fun sign => sign.1.toList.isPrefixOf (c :: cs) with
    | some (sign, kind) => ((s.emit kind (.text sign)).advance sign.length, none)
    | none =>
      if isDigit c then s.scanNumber
      else if c = '"' ∨ c = '\'' then (scanText c [] (s.advance 1) cs, none)
      else if isLetter c then (s.scanWord, none)
      else ((s.report (.strangeSymbol c)).advance 1, none)

/-! ## Every step reads something -/

@[simp] theorem rest_advance (s : Scanner) (n : Nat) : (s.advance n).rest = s.rest.drop n := rfl

@[simp] theorem rest_emit (s : Scanner) (k : TokenKind) (c : TokenContent) :
    (s.emit k c).rest = s.rest := rfl

@[simp] theorem rest_report (s : Scanner) (p : ScanProblem) : (s.report p).rest = s.rest := rfl

@[simp] theorem rest_breakLine (s : Scanner) : s.breakLine.rest = s.rest := rfl

theorem length_rest_skipComment (s : Scanner) (cs : List Char) :
    (skipComment s cs).rest.length ≤ s.rest.length := by
  fun_induction skipComment s cs with
  | case1 => simp
  | case2 => simp
  | case3 _ _ ih => exact Nat.le_trans ih (by simp)
  | case4 _ _ _ _ _ ih => exact Nat.le_trans ih (by simp)

theorem length_rest_scanText (mark : Char) (body : List Char) (s : Scanner) (cs : List Char) :
    (scanText mark body s cs).rest.length ≤ s.rest.length := by
  fun_induction scanText mark body s cs with
  | case1 => simp
  | case2 _ _ _ ih => exact Nat.le_trans ih (by simp [skipNewline])
  | case3 => simp
  | case4 _ _ _ _ _ _ ih => exact Nat.le_trans ih (by simp)

theorem length_numberLexeme {c : Char} (cs : List Char) (h : isDigit c = true) :
    0 < (numberLexeme (c :: cs)).1.length := by
  unfold numberLexeme
  split
  · split <;> simp [List.takeWhile, h]
  · simp [List.takeWhile, h]

theorem isNamePart_of_isLetter {c : Char} (h : isLetter c = true) : isNamePart c = true := by
  simp [isNamePart, isAlphanumeric, h]

theorem signs_ne_nil : ∀ sign ∈ signs, 0 < sign.1.length := by
  decide

/-- **Every step leaves a shorter rest.** -/
theorem length_rest_stepAt (s : Scanner) {c : Char} {cs : List Char} (h : s.rest = c :: cs) :
    (s.stepAt c cs).1.rest.length < s.rest.length := by
  unfold stepAt
  split
  · simp [h]
  split
  · simp [skipNewline, h]
  split
  · simp only [rest_advance, h, List.length_drop, List.length_cons]
    omega
  split
  · refine Nat.lt_of_le_of_lt (length_rest_skipComment _ _) ?_
    simp only [rest_advance, h, List.length_drop, List.length_cons]
    omega
  split
  · rename_i sign kind hfind
    have : 0 < sign.length := signs_ne_nil _ (List.mem_of_find?_eq_some hfind)
    simp only [rest_advance, rest_emit, h, List.length_drop, List.length_cons]
    omega
  split
  · rename_i hd
    have := length_numberLexeme cs hd
    unfold scanNumber
    simp only [h]
    split <;> simp [h] <;> omega
  split
  · refine Nat.lt_of_le_of_lt (length_rest_scanText _ _ _ _) ?_
    simp [h]
  split
  · rename_i hl
    simp only [scanWord, rest_emit, rest_advance, h, List.length_drop, List.length_cons]
    have := isNamePart_of_isLetter hl
    simp only [List.takeWhile, this, List.length_cons]
    omega
  · simp [h]

/-- The end of a scan: the scanner as it was left, and the fault that stopped it, if any. -/
structure Result where
  /-- The scanner as it was left. -/
  scanner : Scanner
  /-- The fault that stopped the scan. -/
  fault : Option Fault

/-- Steps to the end of the text, and marks the end. -/
def run (s : Scanner) : Result :=
  match h : s.rest with
  | [] => ⟨{ s with tokens := s.tokens.push Token.endOfFile }, none⟩
  | c :: cs =>
    match hs : s.stepAt c cs with
    | (s', some fault) => ⟨s', some fault⟩
    | (s', none) =>
      have : s'.rest.length < s.rest.length := by
        have := s.length_rest_stepAt h
        rwa [hs] at this
      run s'
termination_by s.rest.length

end Scanner

/-- **The tokens of a source text**, with the problems found on the way. -/
def scan (source : String) : Scanner.Result :=
  Scanner.run { rest := source.toList }

end Scriptlet
