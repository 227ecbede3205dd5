/-
  Looking names up.

  A plain name is found only while nothing is in doubt, and only if its entry has the generation of
  the directory.  An encrypted name is found at any time: it serves to find the key of a name read
  from the disk, also in the middle of a scan.

  The table may be shared, so an entry counts as found only if it has the directory's number.
-/
import NameCache.Directory.Basic

namespace NameCache

namespace Opened

/-- The entry that a lookup by plain name would find. -/
def findName (s : Opened) (name : Bytes) : Option Nat :=
  s.pool.names.find (Digest.ofName s.dir.id name) fun e =>
    let entry := s.entries.entry e
    entry.named s.dir.id .plain name && entry.generation == s.dir.generation

/-- The entry that a lookup by encrypted name would find. -/
def findEncname (s : Opened) (encname : Bytes) : Option Nat :=
  s.pool.encnames.find (Digest.ofName s.dir.id encname) fun e =>
    (s.entries.entry e).named s.dir.id .encrypted encname

/-- Count a lookup and record it. -/
def recordLookup (kind : NameKind) (name : Bytes) (found : Option Nat) : Step Opened Unit := do
  editTally (·.addLookup found.isSome)
  let s ← get
  match found with
  | some e => emit (.lookupHit kind s.dir.id (s.entries.entry e))
  | none => emit (.lookupMiss kind s.dir.id name)

/-- Look a plain name up.  Refused during an update and while stale entries wait. -/
def lookupName (name : Bytes) : Step Opened (Option Nat) := do
  let s ← get
  if s.dir.updating then throw (.lookupWhileUpdating s.dir.id)
  if s.dir.staleCount ≠ 0 then throw (.lookupWhileStale s.dir.id s.dir.staleCount)
  let found := s.findName name
  recordLookup .plain name found
  return found

/-- Look an encrypted name up. -/
def lookupEncname (encname : Bytes) : Step Opened (Option Nat) := do
  let found := (← get).findEncname encname
  recordLookup .encrypted encname found
  return found

end Opened

end NameCache
