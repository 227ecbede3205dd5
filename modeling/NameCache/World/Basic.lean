/-
  Everything at once: managers, pools, directories and entries.

  Nothing that was ever made loses its number.  A manager that was shut down, a directory that was
  destroyed, a pool handle that was given back and a key reference that was released leave an empty
  place.  Counters outlive their manager, because its directories go on feeding them.

  A pool has no owner.  It exists for as long as something refers to it: a handle, a directory that
  uses it, or a manager that shares it.
-/
import NameCache.Directory.Update
import NameCache.Settings.Basic

namespace NameCache

/-- How a manager provides pools. -/
inductive Provision where
  /-- One pool for everybody. -/
  | shared (pool : Nat)
  /-- A new pool of this geometry for everyone who asks. -/
  | separate (buckets locks : Nat)
  deriving DecidableEq, Repr

/-- A manager. -/
structure Manager where
  settings : Settings
  buckets : Nat
  locks : Nat
  provision : Provision
  enabled : Bool
  /-- The number that the next directory gets. -/
  nextId : UInt64 := 1
  deriving DecidableEq, Repr

/-- A caller's handle on a pool.  The pool it was for is known even after it was given back. -/
structure Handle where
  pool : Nat
  held : Bool := true
  deriving DecidableEq, Repr

/-- The whole state. -/
structure World where
  managers : Array (Option Manager) := #[]
  /-- The counters of each manager. -/
  tallies : Array Tally := #[]
  pools : Array Pool := #[]
  handles : Array Handle := #[]
  directories : Array (Option Directory) := #[]
  entries : Entries := #[]
  /-- The labels of the key references that callers hold. -/
  held : Array (Option String) := #[]
  log : Log := {}

namespace World

/-! ## Looking -/

/-- Manager `m`, unless it was shut down. -/
def manager? (w : World) (m : Nat) : Option Manager := (w.managers[m]?).join

/-- Directory `d`, unless it was destroyed. -/
def directory? (w : World) (d : Nat) : Option Directory := (w.directories[d]?).join

/-- The pool that handle `p` is for, unless it was given back. -/
def handle? (w : World) (p : Nat) : Option Nat :=
  (w.handles[p]?).bind fun h => if h.held then some h.pool else none

/-- The label of held key reference `h`, unless it was released. -/
def held? (w : World) (h : Nat) : Option String := (w.held[h]?).join

/-- The counters of manager `m`. -/
def tally (w : World) (m : Nat) : Tally := w.tallies[m]?.getD {}

/-- A pool that has no buckets, for a number that no pool has. -/
def noPool : Pool := ⟨.empty .plain 0 0, .empty .encrypted 0 0⟩

/-- Pool `p`. -/
def pool (w : World) (p : Nat) : Pool := w.pools[p]?.getD noPool

/-- Whether a manager shares pool `p`. -/
def Manager.shares (p : Nat) (m : Manager) : Bool := m.provision == .shared p

/-- The number of references to pool `p`. -/
def references (w : World) (p : Nat) : Nat :=
  w.handles.countP (fun h => h.held && h.pool == p) +
    w.directories.countP (fun d => d.any (·.pool == p)) +
    w.managers.countP (fun m => m.any (Manager.shares p))

/-- Whether pool `p` still exists. -/
def poolAlive (w : World) (p : Nat) : Bool := w.references p != 0

/-! ## Changing one part -/

/-- Record an event. -/
def emit (event : Event) : Step World Unit := modify fun w => { w with log := w.log.emit event }

/-- An operation on the entries and pool `p`. -/
def onPool {α : Type} (p : Nat) (op : Step (Indexed Pool) α) : Step World α :=
  Step.focus (fun w => ⟨w.entries, w.pool p⟩)
    (fun w t => { w with entries := t.entries, pools := w.pools.setIfInBounds p t.index }) op

/-- A directory with what its operations reach. -/
def opened (w : World) (dir : Directory) : Opened :=
  { dir, entries := w.entries, pool := w.pool dir.pool, tally := w.tally dir.manager, log := w.log }

/-- The world after operations on a directory, the directory itself left aside. -/
def closed (w : World) (s : Opened) : World :=
  { w with
    entries := s.entries
    pools := w.pools.setIfInBounds s.dir.pool s.pool
    tallies := w.tallies.setIfInBounds s.dir.manager s.tally
    log := s.log }

/-- An operation on a directory that has no place in the world. -/
def onLoose {α : Type} (dir : Directory) (op : Step Opened α) : Step World α :=
  Step.focus (·.opened dir) closed op

/-- An operation on directory `d`, whose present state is `dir`. -/
def onDirectory {α : Type} (d : Nat) (dir : Directory) (op : Step Opened α) : Step World α :=
  Step.focus (·.opened dir)
    (fun w s => { w.closed s with directories := w.directories.setIfInBounds d (some s.dir) }) op

end World

end NameCache
