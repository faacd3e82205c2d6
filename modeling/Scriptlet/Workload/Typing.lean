import Scriptlet.Workload.Program

/-! # Workloads: types that do not fit

Every value of a list is used where an integer, a floating-point number, a truth value and a
condition are expected, each time in a program of its own. The values are made up to fit a known
number of reports.
-/
namespace Scriptlet.Workload

/-- The values. -/
def valueTexts : List String :=
  ["1", "1.5", "'x'", "true", "lost", "1 + 2", "1.5 * 2.5", "1 + 1.5", "1 + 'x'", "true + 1",
    "1 < 2", "1 == 'x'", "1 != 1.5", "true and 1", "1 or 'x'", "not 1", "not 'x'", "1 < 'x'",
    "true < 1", "lost + 1", "1 + lost", "lost < 1", "lost == lost", "lost and true", "not lost",
    "none", "-1", "-1.5", "-'x'", "1 == true"]

/-- The programs that use a value in each of the places. -/
def usesOf (value : String) : List String :=
  ["var int x = " ++ value ++ "\n", "var float x = " ++ value ++ "\n",
    "var bool x = " ++ value ++ "\n", "if " ++ value ++ " \x7b \x7d\n"]

/-- The number of reports on a program. -/
def reportCount (source : String) : Nat :=
  (checked (Reading.ofSource true [] source)).reports.length

/-- Checking all uses of all values `n` times: the number of reports. -/
def mistyped (n : Nat) : Nat :=
  total ((List.replicate n (valueTexts.flatMap usesOf)).flatten.map reportCount)

end Scriptlet.Workload
