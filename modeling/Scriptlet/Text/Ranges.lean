/-! # Sets of characters as ranges

Classes of characters are given by tables: ascending lists of closed ranges of code points. The
tables are data of the character database; this module only says how a table is consulted.
-/
namespace Scriptlet.Text

/-- A set of characters, as ascending closed ranges of code points. -/
abbrev Ranges := List (Nat × Nat)

/-- Whether the code point of `c` lies in one of the ranges. -/
def Ranges.contains (table : Ranges) (c : Char) : Bool :=
  table.any fun range => range.1 ≤ c.toNat && c.toNat ≤ range.2

theorem Ranges.contains_iff (table : Ranges) (c : Char) :
    table.contains c = true ↔ ∃ range ∈ table, range.1 ≤ c.toNat ∧ c.toNat ≤ range.2 := by
  simp [Ranges.contains]

end Scriptlet.Text
