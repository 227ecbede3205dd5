/-
  Commands on the pools of one provision, without directories.

  Handles are taken, copied, given back and dropped as in a session.  Entries are made by
  themselves and linked into and unlinked from the pool of a handle directly.
-/
import NameCache.Session.Run

namespace NameCache

/-- A command on pools. -/
inductive PoolCommand where
  | take
  | copy (p : Nat)
  | giveBack (p : Nat)
  | drop (p : Nat)
  | policy
  /-- The number of entries in the shared pool, if there is one. -/
  | sharedLength
  | describe
  | makeEntry (dir : UInt64) (name encname : Bytes)
  | link (p e : Nat)
  | unlink (p e : Nat)
  deriving DecidableEq, Repr

namespace PoolCommand

open Running

/-- The world these commands work on: one manager whose pools have a given geometry. -/
def start (shared : Bool) (buckets locks : Nat) : Step World Unit := do
  let _ ← World.addManagerOf { shared } buckets locks

/-- Make an entry by itself; its number. -/
def addEntry (dir : UInt64) (name encname : Bytes) : Step World Nat := do
  let made ← Step.require (Entry.create dir name encname "")
  let e := (← get).entries.size
  modify fun w => { w with entries := w.entries.push made }
  return e

/-- Run a command. -/
def run : PoolCommand → Running Reply
  | .take => do takeHandle (← perform (World.providePool (← manager 0).provision))
  | .copy p => do takeHandle (← pool p)
  | .giveBack p => Running.giveBack p 0
  | .drop p => Running.dropHandle p none
  | .policy => return .text (← manager 0).provision.title
  | .sharedLength => do
    match (← manager 0).provision with
    | .shared p => return .number ((← get).pool p).length
    | .separate _ _ => return .number none
  | .describe => do
    let manager ← manager 0
    return .text ((← get).describeProvision manager.provision)
  | .makeEntry dir name encname => return .count (← perform (addEntry dir name encname))
  | .link p e => do
    let p ← pool p
    let _ ← entry e
    perform (World.onPool p (Pool.link e))
    return .done
  | .unlink p e => do
    let p ← pool p
    let _ ← entry e
    perform (World.onPool p (Pool.unlink e))
    return .done

end PoolCommand

namespace World

/-- What each pool handle shows: the pool while the handle is held, and whether the pool exists. -/
def shownHandles (w : World) : List (Option PoolInfo × Bool) :=
  w.handles.toList.map fun h =>
    (if h.held then some (poolInfo (w.pool h.pool)) else none, w.poolAlive h.pool)

end World

end NameCache
