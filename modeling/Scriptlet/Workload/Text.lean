import Scriptlet.Workload.Program

/-! # Workloads: tokens and mistakes

Texts for the scanner, which have every kind of token; statements that end in different ways, right
and wrong; and pieces of text that are no statements. All are made up to fit known counts.
-/
namespace Scriptlet.Workload

/-- The first `n` of the given texts, which are taken again from the first one on when they have all
been taken. -/
def cycle (texts : List String) (n : Nat) : List String :=
  (List.range n).map fun i => texts.getD (i % texts.length) ""

/-- The first lines of the long text for the scanner: all signs and words once. -/
def tokenLines : List String :=
  ["// signs, words, texts",
    "int float bool string var let if else elif while loop break continue and or not",
    "+ += - -= * *= ** **= % %= / /= = == > >= < <= != ; , ( ) \x7b \x7d",
    "true false none 0 7 42 3.5 0.25 'one' \"two\" x y z1", "writeline(x, y + 1, 'z')",
    "x = -(y + 1)", "/* a comment", "over two lines */"]

/-- The other lines of the long text for the scanner. -/
def ordinaryLines : List String :=
  ["var int total = (1 + 2) * 3 - 4 / 5 % 6 ** 7", "let float share = 0.5, rest = 1.25",
    "var string name = 'first\\tsecond', other = \"third\"",
    "if total >= 10 and not done or total != 3 \x7b", "    total += 1 // one more",
    "    share *= 2.0", "\x7d elif total <= 2 \x7b", "    total -= 1", "\x7d else \x7b",
    "    writeline(name, total, true)", "\x7d", "while total < 100 \x7b", "    total **= 2",
    "    if total == 64 \x7b break \x7d else \x7b continue \x7d", "\x7d", "/* the end */"]

/-- The lines of the short text for the scanner. -/
def briefLines : List String :=
  ["var int count = (1 + 2) * 3; // a sum", "while count < 100 \x7b", "    count *= 2", "\x7d",
    "writeline('count', count)"]

/-- Scanning a long and a short text in turn: the number of tokens, and the first of them. -/
def scanning (n : Nat) : Nat × Option Token :=
  let texts := [ofLines (tokenLines ++ ordinaryLines), ofLines briefLines]
  let tokens := (scan (String.join (cycle texts n))).scanner.tokens
  (tokens.size, tokens[0]?)

/-- Statements that end in different ways. -/
def endings : List String :=
  ["var int a = (1 +\n2)\n", "var int b = 2;\n", "var int c = 3\n\n\n", "var int d = (1 ; 2)\n",
    "e = -1;\n"]

/-- Normalizing the terminators: the number of tokens and of reports. -/
def terminators (n : Nat) : Nat × Nat :=
  let text := String.join ("var int start = 0\n" :: cycle endings n)
  let r := normalize (scan text).scanner.tokens.toList
  (r.tokens.length, r.reports.length)

/-- Pieces of text that are no statements. -/
def fragments : List String :=
  ["var 5", "var int 5", "var int x 5", "x 5", "f(1", "if true", "x = (", "loop \x7b", ")",
    "x = *", "@", "else \x7b \x7d"]

/-- Reading fragments one by one: the statements they leave, and the reports. -/
def recovery (n : Nat) : Nat × Nat :=
  let readings := (cycle fragments n).map (Reading.ofSource true [])
  (total (readings.map statementCount), total (readings.map fun r => r.reports.length))

end Scriptlet.Workload
