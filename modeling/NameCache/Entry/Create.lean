/-
  Making entries.  Both names must have between 1 and 255 bytes; that is looked at before the key
  is touched.
-/
import NameCache.Fault

namespace NameCache

namespace Entry

/-- The greatest number of bytes of a name. -/
def maxNameLength : Nat := 255

/-- Whether a name has a length that can be cached. -/
def FitName (name : Bytes) : Prop := 1 ≤ name.length ∧ name.length ≤ maxNameLength

instance (name : Bytes) : Decidable (FitName name) := inferInstanceAs (Decidable (_ ∧ _))

/-- A new entry, unconfirmed and on no list, which holds a key with the given label. -/
def create (dir : UInt64) (name encname : Bytes) (label : String) : Except Fault Entry :=
  if FitName name ∧ FitName encname then .ok { dir, name, encname, key := some label }
  else .error (.badNameLength name.length encname.length)

end Entry

end NameCache
