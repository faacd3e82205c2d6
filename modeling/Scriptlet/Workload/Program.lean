import Scriptlet.Source
import Scriptlet.Typing.Program

/-! # Workloads: a whole program

Workloads are sample inputs of any size for the parts of the library, with counts by which an
outcome is recognised. The sample program here has every kind of statement, and as many further
declarations as one likes.

Only this program is a given text. The samples of the other workload modules are made up: they were
chosen so that the counts come out as they are known for some sizes. The counts for other sizes, and
the samples themselves, stand for nothing else.
-/
namespace Scriptlet.Workload

/-- The lines of a text, each ended by a line break. -/
def ofLines (lines : List String) : String :=
  String.join (lines.map (· ++ "\n"))

/-- The sum of a list of counts. -/
def total (counts : List Nat) : Nat :=
  counts.foldl (· + ·) 0

/-- The fixed part of the sample program. -/
def programLines : List String :=
  ["var int a = 1", "let float b = 2.5", "var bool c = true", "var bool d = false", "var int e",
    "var int f = a", "var float g = b", "var bool h = c", "var int neg = -3",
    "var float fneg = -2.5", "var int sum = 1 + 2 + 3 + 4", "var float fsum = 1.5 + 2.5",
    "var int chain = (1 + 2) + 3", "var int pow = 2 ** 3", "var int modu = 7 % 2",
    "var int divi = 8 / 2", "var int mul = 2 * 3", "var int sub = 5 - 1", "var bool cmp1 = 1 < 2",
    "var bool cmp2 = 1 == 1", "var bool cmp3 = 1 != 2", "var bool cmp4 = 1.0 >= 0.5",
    "var bool cmp5 = 'x' == 'x'", "var bool bo1 = true and false", "var bool bo2 = true or false",
    "var bool bo3 = not true", "var bool bo4 = not not c", "var bool bo5 = (1 < 2) and not false",
    "var bool bo6 = c and d or c", "var int multi1, multi2 = 5, multi3", "a = 7", "a += 1",
    "a -= 1", "a *= 2", "a /= 2", "a **= 1", "a %= 5", "if c \x7b", "    var int inner = 1",
    "    inner = inner + 1", "\x7d elif d \x7b", "    var int inner2 = 2", "\x7d else \x7b",
    "    var int inner3 = 3", "\x7d", "if not c \x7b", "    a = 0", "\x7d", "if 1 < 2 \x7b",
    "    if true \x7b a = a \x7d", "\x7d", "while a < 3 \x7b", "    a = a + 1",
    "    if a == 2 \x7b continue \x7d", "    if a >= 3 \x7b break \x7d", "\x7d", "loop \x7b",
    "    break", "\x7d", "writeline(a, b)", "write('done')", "writeline(readInt('p'))"]

/-- One of the further declarations. -/
def furtherLine (i : Nat) : String :=
  s!"var int v{i} = {i} + 1"

/-- The sample program with `n` further declarations. -/
def program (n : Nat) : String :=
  ofLines (programLines ++ (List.range n).map furtherLine)

/-- The number of statements of a reading. -/
def statementCount (r : Reading) : Nat :=
  match r.program with
  | some (.program ss _, _) => ss.length
  | _ => 0

/-- What the checker leaves of a program: the scopes and the reports. -/
def checked (r : Reading) : CheckState :=
  match r.program with
  | none => { scopes := {}, reports := r.reports }
  | some (n, scopes) =>
    match Check.program n { scopes := scopes, reports := r.reports } with
    | .ok _ s => s
    | .error _ s => s

/-- Reading the sample program: its statements and reports. -/
def parsing (n : Nat) : Nat × Nat :=
  let r := Reading.ofSource true [] (program n)
  (statementCount r, r.reports.length)

/-- Checking the sample program: the names in its scope, and the reports. -/
def typing (n : Nat) : Nat × Nat :=
  let s := checked (Reading.ofSource true [] (program n))
  ((s.scopes.bindings Scopes.root).length, s.reports.length)

/-- Reading and checking the sample program: its tokens, statements and reports. -/
def pipeline (n : Nat) : Nat × Nat × Nat :=
  let r := Reading.ofSource true [] (program n)
  (r.tokens.length, statementCount r, (checked r).reports.length)

end Scriptlet.Workload
