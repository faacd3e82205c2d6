import Scriptlet.Text.Ranges

/-! # Blanks around numbers

When a number is read from a line of input, blanks before and after it are dropped. The blanks
are the tabulators and line breaks, the space and the separators of the other scripts; the four
information separators (code points 28 to 31) are not among them.
-/
namespace Scriptlet.Text

/-- The characters that may surround a number, as ascending ranges of code points. -/
def blanks : Ranges :=
  [(0x9, 0xd), (0x20, 0x20), (0x85, 0x85), (0xa0, 0xa0), (0x1680, 0x1680), (0x2000, 0x200a),
   (0x2028, 0x2029), (0x202f, 0x202f), (0x205f, 0x205f), (0x3000, 0x3000)]

/-- Whether `c` may surround a number. -/
def isBlank (c : Char) : Bool :=
  blanks.contains c

/-- `cs` without the blanks at its two ends. -/
def trimBlanks (cs : List Char) : List Char :=
  ((cs.dropWhile isBlank).reverse.dropWhile isBlank).reverse

end Scriptlet.Text
