/-
  What a session can be asked, and what it answers.

  A command names managers, directories, pool handles, entries and held key references by number.
  A number that nothing has, or whose bearer is gone, is refused before anything is done.
-/
import NameCache.World.Management
import NameCache.World.Text
import NameCache.Directory.Action

namespace NameCache

/-- A command. -/
inductive Command where
  | managerInfo (m : Nat)
  | counters (m : Nat)
  | describeManager (m : Nat)
  | setEnabled (m : Nat) (enabled : Bool)
  | shutdown (m : Nat)
  /-- Take a handle on a pool that a manager provides. -/
  | takePool (m : Nat)
  /-- Take a handle on the pool of a directory. -/
  | poolOf (d : Nat)
  | poolInfo (p : Nat)
  | poolAlive (p : Nat)
  | describePool (p : Nat)
  /-- Give a handle back to a manager. -/
  | giveBack (p m : Nat)
  /-- Drop a handle.  A manager that is named has to exist, and has no part in it. -/
  | dropHandle (p : Nat) (m : Option Nat)
  /-- Make a directory, on the pool of a handle or on one that the manager provides. -/
  | create (m : Nat) (p : Option Nat)
  /-- Make and drop a number of directories. -/
  | skip (m n : Nat)
  /-- Have a manager destroy a directory and take its pool back. -/
  | destroy (d m : Nat)
  | drop (d : Nat)
  | describeDirectory (d : Nat)
  | directoryInfo (d : Nat)
  | within (d : Nat) (action : Action)
  /-- Look an encrypted name up and confirm the entry found. -/
  | confirm (d : Nat) (encname : Bytes)
  | entryInfo (e : Nat)
  | acquireKey (e : Nat)
  | releaseKey (h : Nat)
  deriving DecidableEq, Repr

/-- What a number was meant to name. -/
inductive Missing where
  | manager
  | directory
  | pool
  | entry
  | held
  deriving DecidableEq, Repr

/-- Why a command was not carried out to its end. -/
inductive Refusal where
  | missing (what : Missing)
  | fault (fault : Fault)
  deriving DecidableEq, Repr

/-- The counters of a manager beside its geometry. -/
structure Snapshot where
  buckets : Nat
  locks : Nat
  shared : Bool
  tally : Tally
  deriving DecidableEq, Repr

/-- What a pool looks like. -/
structure PoolInfo where
  buckets : Nat
  locks : Nat
  length : Nat
  names : Nat
  encnames : Nat
  empty : Bool
  deriving DecidableEq, Repr

/-- What a directory looks like. -/
structure DirectoryInfo where
  id : UInt64
  generation : UInt64
  status : Status
  length : Nat
  activeCount : Nat
  staleCount : Nat
  /-- The active entries with their generations, the last confirmed one first. -/
  active : List (Nat × UInt64)
  poolLength : Nat
  deriving DecidableEq, Repr

/-- An answer. -/
inductive Reply where
  | done
  | count (n : Nat)
  | flag (b : Bool)
  | text (s : String)
  | manager (manager : Manager) (entries : UInt64)
  | counters (snapshot : Snapshot)
  | handle (p : Nat) (sameAs : Option Nat)
  | pool (info : PoolInfo)
  | created (d : Nat) (id : UInt64)
  | directory (info : DirectoryInfo)
  | inserted (e : Nat) (generation : UInt64)
  /-- The generation of a directory. -/
  | generation (generation : UInt64)
  /-- The generation of an entry confirmed. -/
  | updated (generation : UInt64)
  | found (entry : Option (Nat × Entry))
  | entry (entry : Entry)
  /-- A number, or nothing. -/
  | number (n : Option Nat)
  deriving DecidableEq, Repr

/-- A command, and the directory it is about if it names one. -/
structure Request where
  about : Option Nat
  command : Command
  deriving DecidableEq, Repr

/-- What one request brought about. -/
structure Answer where
  reply : Except Refusal Reply
  /-- The key events of the request, oldest first. -/
  keys : List KeyEvent
  /-- The trace of the request, oldest first. -/
  events : List Event
  /-- The directory it was about, or that it made, if that exists now. -/
  directory : Option DirectoryInfo

end NameCache
