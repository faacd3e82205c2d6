import Scriptlet.Text.Printable

/-! # Quoted text

The written form of a text inside a larger structure: between quotation marks, with whatever
cannot be shown as itself replaced by an escape. Single marks are used, unless the text holds a
single mark and no double one. Escaped are the backslash, the mark in use, and every character
that is not shown: line feed, tabulator and carriage return by a letter, the others by the
hexadecimal digits of their code point (two, four or eight of them, the fewest that suffice).
-/
namespace Scriptlet.Text

/-- The last `width` hexadecimal digits of `n`, in lower case. -/
def hexDigits (width n : Nat) : List Char :=
  let digits := Nat.toDigits 16 n
  List.replicate (width - digits.length) '0' ++ digits

/-- The escape that names a character by its code point. -/
def codeEscape (c : Char) : List Char :=
  if c.toNat < 0x100 then '\\' :: 'x' :: hexDigits 2 c.toNat
  else if c.toNat < 0x10000 then '\\' :: 'u' :: hexDigits 4 c.toNat
  else '\\' :: 'U' :: hexDigits 8 c.toNat

/-- What stands for `c` between two `mark`s, where `shown` tells which characters may stand for
themselves. -/
def quotedChar (shown : Char → Bool) (mark c : Char) : List Char :=
  if c = mark ∨ c = '\\' then ['\\', c]
  else if c = '\n' then ['\\', 'n']
  else if c = '\t' then ['\\', 't']
  else if c = '\r' then ['\\', 'r']
  else if shown c then [c]
  else codeEscape c

/-- The quotation mark for a text: a double one exactly when that spares an escape. -/
def quoteMark (cs : List Char) : Char :=
  if '\'' ∈ cs ∧ '"' ∉ cs then '"' else '\''

/-- The text between quotation marks, as far as possible in the characters that are `shown`. -/
def quotedWith (shown : Char → Bool) (s : String) : String :=
  let mark := quoteMark s.toList
  String.ofList (mark :: s.toList.flatMap (quotedChar shown mark) ++ [mark])

/-- The text between quotation marks. -/
def quoted (s : String) : String :=
  quotedWith isPrintable s

/-- The text between quotation marks, in the printable characters of code below 127 only. -/
def quotedAscii (s : String) : String :=
  quotedWith (fun c => isPrintable c && c.toNat < 0x7f) s

end Scriptlet.Text
