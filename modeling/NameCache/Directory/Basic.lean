/-
  Directories: the entries of one directory, in two lists.

  One of the lists is active: its entries were confirmed in the present generation.  The other is
  stale: its entries wait to be confirmed by a scan of the directory, or to be destroyed.  Which of
  the two plays which part can change without touching an entry.

  A directory is opened to be worked on: `Opened` is the directory with everything its operations
  reach, which is the entries, the pool it looks names up in, the counters of its manager, and the
  log.
-/
import NameCache.Pool
import NameCache.Tally
import NameCache.Log

namespace NameCache

/-- What may be done with a directory at present. -/
inductive Status where
  /-- Nothing is in doubt: names can be looked up. -/
  | clean
  /-- Stale entries wait outside an update: a scan or a purge has to come first. -/
  | inconsistent
  /-- An update is under way. -/
  | updating
  deriving DecidableEq, Repr

namespace Status

/-- The status as shown in texts. -/
def title : Status → String
  | .clean => "Clean"
  | .inconsistent => "Inconsistent"
  | .updating => "Updating"

end Status

/-- The cached entries of one directory. -/
structure Directory where
  /-- The number that is folded into the hashes of its names. -/
  id : UInt64
  /-- The manager that made it, whose counters it feeds. -/
  manager : Nat
  /-- The pool that its entries are linked into. -/
  pool : Nat
  /-- The present generation; zero for none. -/
  generation : UInt64 := 0
  updating : Bool := false
  active : Side := .a
  lists : SlotLists Nat := .empty 2

namespace Directory

/-- The number of active entries. -/
def activeCount (d : Directory) : Nat := d.lists.count d.active.list

/-- The number of stale entries. -/
def staleCount (d : Directory) : Nat := d.lists.count d.active.other.list

/-- The number of entries. -/
def length (d : Directory) : Nat := d.lists.total

/-- The active entries, the last confirmed one first. -/
def activeEntries (d : Directory) : List Nat := d.lists.values d.active.list

/-- The stale entries. -/
def staleEntries (d : Directory) : List Nat := d.lists.values d.active.other.list

/-- The status. -/
def status (d : Directory) : Status :=
  if d.updating then .updating else if d.staleCount = 0 then .clean else .inconsistent

/-- The directory as a text. -/
def describe (d : Directory) : String :=
  Text.Record.abridged "DirCache" [("id", toString d.id.toNat)]

end Directory

/-- A directory and everything its operations reach. -/
structure Opened where
  dir : Directory
  entries : Entries
  pool : Pool
  tally : Tally
  log : Log

namespace Opened

variable {α : Type}

/-! ## Steps on one part -/

/-- Change the directory. -/
def editDir (f : Directory → Directory) : Step Opened Unit :=
  modify fun s => { s with dir := f s.dir }

/-- Change entry `e`. -/
def editEntry (e : Nat) (f : Entry → Entry) : Step Opened Unit :=
  modify fun s => { s with entries := s.entries.modify e f }

/-- Change the counters. -/
def editTally (f : Tally → Tally) : Step Opened Unit :=
  modify fun s => { s with tally := f s.tally }

/-- Record an event. -/
def emit (event : Event) : Step Opened Unit :=
  modify fun s => { s with log := s.log.emit event }

/-- Entry `e`. -/
def entry (e : Nat) : Step Opened Entry := return (← get).entries.entry e

/-- An operation on the two lists. -/
def onLists (op : Step (SlotLists Nat) α) : Step Opened α :=
  Step.focus (·.dir.lists) (fun s lists => { s with dir := { s.dir with lists } }) op

/-- An operation on the entries and the pool. -/
def onPool (op : Step (Indexed Pool) α) : Step Opened α :=
  Step.focus (fun s => ⟨s.entries, s.pool⟩)
    (fun s t => { s with entries := t.entries, pool := t.index }) op

/-- The first node of the active list. -/
def activeFront : Step Opened (Option Nat) := do
  let list := (← get).dir.active.list
  onLists (SlotLists.front list)

end Opened

end NameCache
