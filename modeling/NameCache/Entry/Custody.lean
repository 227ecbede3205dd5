/-
  A lone entry in a caller's hands.

  The caller made the entry from a key of its own and may take further references to that key, from
  the entry while it is live or from the key itself.  The references that are out are the caller's
  own, those it holds besides, and the entry's.
-/
import NameCache.Entry.Create
import NameCache.Log

namespace NameCache

/-- An entry, the references its caller holds (the last taken first), and what happened to keys. -/
structure Custody where
  entry : Entry
  held : List String := []
  log : Log := {}

namespace Custody

/-- Make an entry from a key with the given label. -/
def create (dir : UInt64) (name encname : Bytes) (label : String) : Except Fault Custody := do
  let entry ← Entry.create dir name encname label
  return { entry, log := Log.acquire {} label }

/-- The references that are out. -/
def references (c : Custody) : Nat := 1 + c.held.length + (if c.entry.live then 1 else 0)

/-- Hold one more reference to a key. -/
def hold (c : Custody) (label : String) : Custody :=
  { c with held := label :: c.held, log := c.log.acquire label }

/-- Take a reference from the entry: how many are held then, or nothing if it is not live. -/
def acquire (c : Custody) : Option Nat × Custody :=
  match c.entry.key with
  | none => (none, c)
  | some label => (some (c.held.length + 1), c.hold label)

/-- Give back the last reference taken: how many are held then, or nothing if there was none. -/
def release (c : Custody) : Option Nat × Custody :=
  match c.held with
  | [] => (none, c)
  | label :: rest => (some rest.length, { c with held := rest, log := c.log.release label })

/-- Have the entry give up its key: the label of the key, or nothing the second time. -/
def takeKey (c : Custody) : Option String × Custody :=
  match c.entry.key with
  | none => (none, c)
  | some label =>
    (some label, { c with entry := { c.entry with key := none }, log := c.log.release label })

/-- A node by its number.  The largest 64-bit number stands for no node. -/
def nodeOfNumber (n : Nat) : Option Nat := if n = UInt64.size - 1 then none else some n

end Custody

end NameCache
