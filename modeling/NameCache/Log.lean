/-
  What can be observed while operations run.

  Two records are kept.  One lists every taking and giving back of a key reference; the order of
  its releases is the order in which entries are destroyed.  The other lists the events of the
  trace, each with the facts that were true at that moment; an entry in an event is a copy of the
  entry as it was.

  Both lists have the latest first.
-/
import NameCache.Directory.Side
import NameCache.Entry

namespace NameCache

/-- A key reference taken or given back, by the key's label. -/
inductive KeyEvent where
  | acquired (label : String)
  | released (label : String)
  deriving DecidableEq, Repr

/-- An event of the trace. -/
inductive Event where
  | initialized (buckets locks : Nat) (shared enabled : Bool)
  | shutdownWithEntries (entries : UInt64)
  | shutdown (buckets : Nat) (shared : Bool)
  | switched (enabled : Bool)
  | allocatingPool (buckets locks : Nat)
  | freeingPoolWithEntries (entries : Nat)
  | freedPool
  | poolStillReferenced
  | created (dir : UInt64)
  | destroyed (dir : UInt64) (freed : Nat)
  | lookupHit (kind : NameKind) (dir : UInt64) (entry : Entry)
  | lookupMiss (kind : NameKind) (dir : UInt64) (name : Bytes)
  | inserted (dir : UInt64) (entry : Entry)
  | confirmed (dir : UInt64) (entry : Entry)
  | inconsistent (dir generation : UInt64) (entry : Entry)
  | expiredBySwap (dir : UInt64) (active : Side)
  | expiredEntry (dir : UInt64) (entry : Entry)
  | beganUpdate (dir before after : UInt64)
  | endedUpdate (dir generation : UInt64) (freed : Nat)
  | abortedUpdate (dir generation : UInt64)
  | purged (dir : UInt64) (freed : Nat)
  | freedEntry (dir : UInt64) (entry : Entry)
  | reacquired (dir : UInt64)
  | upgradeFailed (dir : UInt64)
  deriving DecidableEq, Repr

/-- The records, latest first. -/
structure Log where
  keys : List KeyEvent := []
  events : List Event := []
  deriving DecidableEq, Repr, Inhabited

namespace Log

/-- Record that a reference was taken. -/
def acquire (log : Log) (label : String) : Log := { log with keys := .acquired label :: log.keys }

/-- Record that a reference was given back. -/
def release (log : Log) (label : String) : Log := { log with keys := .released label :: log.keys }

/-- Record an event. -/
def emit (log : Log) (event : Event) : Log := { log with events := event :: log.events }

/-- What was recorded since an earlier state of the log, oldest first. -/
def since (log before : Log) : List KeyEvent × List Event :=
  ((log.keys.take (log.keys.length - before.keys.length)).reverse,
    (log.events.take (log.events.length - before.events.length)).reverse)

/-- How often a reference to a key was taken. -/
def acquisitions (log : Log) (label : String) : Nat := log.keys.count (.acquired label)

/-- How often a reference to a key was given back. -/
def releases (log : Log) (label : String) : Nat := log.keys.count (.released label)

/-- The labels of the keys of which a reference was ever taken, each once. -/
def labels (log : Log) : List String :=
  (log.keys.filterMap fun
    | .acquired label => some label
    | .released _ => none).eraseDups

end Log

end NameCache
