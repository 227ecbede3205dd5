/-
  The ways an operation can stop short.

  Some are a caller's mistake: a name of impossible length, a lookup by name while the directory is
  in doubt, an entry of another directory, a pool given back to the wrong place.  The rest would be
  a breach of the cache's own bookkeeping, such as a link that points nowhere.  Each has one text.
-/
import NameCache.Entry

namespace NameCache

/-- Why an operation stopped. -/
inductive Fault where
  /-- An index past the end of an array. -/
  | outOfBounds (length index : Nat)
  /-- A link to a slot that holds no node. -/
  | vacantSlot
  /-- A sum past the largest 64-bit number. -/
  | sumOverflow
  /-- A difference below zero. -/
  | differenceOverflow
  /-- A loop that outlived the list it empties. -/
  | endless
  /-- Counts of buckets and locks that no table can have. -/
  | badGeometry (buckets locks : Nat)
  /-- A name that is empty or too long. -/
  | badNameLength (name encname : Nat)
  /-- An entry to be unlinked from a table it is not linked into. -/
  | notLinked (kind : NameKind) (entry : Entry)
  /-- An entry whose node in a table is another's, or nobody's. -/
  | corruptLink (kind : NameKind) (entry : Entry)
  /-- A lookup by name during an update. -/
  | lookupWhileUpdating (dir : UInt64)
  /-- A lookup by name while stale entries wait. -/
  | lookupWhileStale (dir : UInt64) (stale : Nat)
  /-- An entry confirmed through a directory with another number. -/
  | wrongDirectory (entry : Entry) (dir : UInt64)
  /-- An entry confirmed that is on no list of the directory. -/
  | destroyedEntry (entry : Entry)
  /-- A node to be freed that is on no list of the directory. -/
  | unlinkedNode (dir : UInt64)
  /-- A pool given back to a manager whose shared pool is another one. -/
  | foreignPool
  /-- Entries on both lists outside an update. -/
  | bothListsPopulated
  /-- Stale entries beside active ones when an update begins. -/
  | staleBesideActive
  /-- Active entries where there should be none. -/
  | activeLeft (count : Nat)
  deriving DecidableEq, Repr

namespace Fault

/-- The text of a fault. -/
def message : Fault → String
  | .outOfBounds length index =>
    s!"index out of bounds: the len is {length} but the index is {index}"
  | .vacantSlot => "internal error: entered unreachable code: arena link points at a vacant slot"
  | .sumOverflow => "attempt to add with overflow"
  | .differenceOverflow => "attempt to subtract with overflow"
  | .endless => "dircache: a list did not run empty"
  | .badGeometry buckets locks =>
    s!"dircache: bad table geometry: {buckets} buckets / {locks} locks"
  | .badNameLength name encname => s!"dircache: invalid file name length: {name}/{encname}"
  | .notLinked kind entry =>
    s!"dircache: entry {entry.describe} is not linked into the {kind.title} table"
  | .corruptLink kind entry =>
    s!"dircache: {kind.title} bucket link of {entry.describe} is corrupt"
  | .lookupWhileUpdating dir =>
    s!"dircache: lookup_by_name on directory {dir.toNat} while an update is in progress"
  | .lookupWhileStale dir stale =>
    s!"dircache: lookup_by_name on directory {dir.toNat} with {stale} stale entries pending"
  | .wrongDirectory entry dir =>
    s!"dircache: entry {entry.describe} belongs to directory {entry.dir.toNat}, not {dir.toNat}"
  | .destroyedEntry entry => s!"dircache: update of destroyed entry {entry.describe}"
  | .unlinkedNode dir => s!"dircache: free of unlinked node in directory {dir.toNat}"
  | .foreignPool => "dircache: foreign pool returned"
  | .bothListsPopulated => "dircache: both lists populated outside an update"
  | .staleBesideActive => "dircache: stale entries pending while active entries exist"
  | .activeLeft count =>
    "assertion " ++ "`left == right` failed\n  left: " ++ toString count ++ "\n right: 0"

end Fault

end NameCache
