/-
  The two lists of a directory, apart from the part that each plays at present.
-/
namespace NameCache

/-- One of the two lists of a directory. -/
inductive Side where
  | a
  | b
  deriving DecidableEq, Repr, Inhabited

namespace Side

/-- The list that a side stands for. -/
def list : Side → Nat
  | .a => 0
  | .b => 1

/-- The opposite side. -/
def other : Side → Side
  | .a => .b
  | .b => .a

/-- The side as shown in texts. -/
def title : Side → String
  | .a => "A"
  | .b => "B"

end Side

end NameCache
