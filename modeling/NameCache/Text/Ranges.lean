/-
  Sets of characters as ascending tables of inclusive code point ranges.

  A table is read from its low end, and the reading ends at the first range that lies above the
  character: in an ascending table no later range can hold it (`covers`).  Whether a table ascends
  is checked where the table stands (`ascends`).
-/
namespace NameCache.Text

/-- Inclusive code point ranges, the lowest first. -/
abbrev Ranges := List (Nat × Nat)

namespace Ranges

/-- Whether some range of an ascending table holds `c`. -/
def covers (c : Char) : Ranges → Bool
  | [] => false
  | (low, high) :: later => low ≤ c.toNat && (c.toNat ≤ high || covers c later)

/-- Every range is in order and ends below the start of the next one. -/
def ascends : Ranges → Bool
  | [] => true
  | [(low, high)] => low ≤ high
  | (low, high) :: (next, last) :: later =>
    low ≤ high && high < next && ascends ((next, last) :: later)

/-- How many code points the table holds. -/
def size (table : Ranges) : Nat := table.foldl (fun n (low, high) => n + (high + 1 - low)) 0

end Ranges

/-! ## Between two ranges, and at the end of one -/

example : Ranges.covers 'c' [(0x41, 0x5A), (0x61, 0x7A)] = true := by decide
example : Ranges.covers '[' [(0x41, 0x5A), (0x61, 0x7A)] = false := by decide
example : Ranges.covers 'z' [(0x41, 0x5A), (0x61, 0x7A)] = true := by decide

end NameCache.Text
