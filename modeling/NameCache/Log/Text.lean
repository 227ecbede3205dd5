/-
  Key events and trace events as they are written down: a line for a key event; a level, a message
  and labelled values for an event of the trace.
-/
import NameCache.Log

namespace NameCache

/-- A key event as a line: a plus sign for a reference taken, a minus sign for one given back. -/
def KeyEvent.line : KeyEvent → String
  | .acquired label => "+" ++ label
  | .released label => "-" ++ label

/-- The weight of an event. -/
inductive Level where
  | warn
  | info
  | debug
  | trace
  deriving DecidableEq, Repr

/-- The level as written. -/
def Level.title : Level → String
  | .warn => "WARN"
  | .info => "INFO"
  | .debug => "DEBUG"
  | .trace => "TRACE"

/-- A value in an event. -/
inductive FieldValue where
  | number (n : Nat)
  | flag (b : Bool)
  | text (s : String)
  deriving DecidableEq, Repr

namespace Event

/-- The level of an event. -/
def level : Event → Level
  | .initialized .. => .info
  | .shutdownWithEntries .. => .warn
  | .shutdown .. => .info
  | .switched .. => .info
  | .allocatingPool .. => .debug
  | .freeingPoolWithEntries .. => .warn
  | .freedPool => .debug
  | .poolStillReferenced => .debug
  | .created .. => .debug
  | .destroyed .. => .debug
  | .lookupHit .. => .trace
  | .lookupMiss .. => .trace
  | .inserted .. => .debug
  | .confirmed .. => .trace
  | .inconsistent .. => .debug
  | .expiredBySwap .. => .trace
  | .expiredEntry .. => .trace
  | .beganUpdate .. => .debug
  | .endedUpdate .. => .debug
  | .abortedUpdate .. => .debug
  | .purged .. => .debug
  | .freedEntry .. => .trace
  | .reacquired .. => .trace
  | .upgradeFailed .. => .trace

/-- What an event says, without the common beginning. -/
def title : Event → String
  | .initialized .. => "initialized"
  | .shutdownWithEntries .. => "shutdown with live entries"
  | .shutdown .. => "shutdown"
  | .switched .. => "enable switch changed"
  | .allocatingPool .. => "allocating private pool"
  | .freeingPoolWithEntries .. => "freeing private pool with live entries"
  | .freedPool => "freed private pool"
  | .poolStillReferenced => "private pool still referenced, deferring free"
  | .created .. => "created"
  | .destroyed .. => "destroyed"
  | .lookupHit .plain .. => "lookup hit"
  | .lookupHit .encrypted .. => "enclookup hit"
  | .lookupMiss .plain .. => "lookup miss"
  | .lookupMiss .encrypted .. => "enclookup miss"
  | .inserted .. => "insert"
  | .confirmed .. => "confirm"
  | .inconsistent .. => "inconsistent cache"
  | .expiredBySwap .. => "expire by swap"
  | .expiredEntry .. => "expire active entry"
  | .beganUpdate .. => "begin update"
  | .endedUpdate .. => "end update"
  | .abortedUpdate .. => "abort update"
  | .purged .. => "purge"
  | .freedEntry .. => "free entry"
  | .reacquired .. => "reacquiring exclusively for update"
  | .upgradeFailed .. => "upgrade failed, reacquiring"

/-- What an event says. -/
def message (event : Event) : String := "dircache: " ++ event.title

/-- The directory of an event. -/
def dirField (dir : UInt64) : String × FieldValue := ("dir", .number dir.toNat)

/-- The entry of an event, as it was. -/
def entryField (entry : Entry) : String × FieldValue := ("entry", .text entry.describe)

/-- The values of an event. -/
def fields : Event → List (String × FieldValue)
  | .initialized buckets locks shared enabled =>
    [("buckets", .number buckets), ("bucket_locks", .number locks), ("global", .flag shared),
      ("enabled", .flag enabled)]
  | .shutdownWithEntries entries => [("entries", .number entries.toNat)]
  | .shutdown buckets shared => [("buckets", .number buckets), ("global", .flag shared)]
  | .switched enabled => [("enabled", .flag enabled)]
  | .allocatingPool buckets locks => [("buckets", .number buckets), ("locks", .number locks)]
  | .freeingPoolWithEntries entries => [("entries", .number entries)]
  | .freedPool => []
  | .poolStillReferenced => []
  | .created dir => [dirField dir]
  | .destroyed dir freed => [dirField dir, ("freed", .number freed)]
  | .lookupHit _ dir entry => [dirField dir, entryField entry]
  | .lookupMiss .plain dir name =>
    [dirField dir, ("name", .text (String.ofList (Text.Utf8.lossy name)))]
  | .lookupMiss .encrypted dir name =>
    [dirField dir, ("encname", .text (String.ofList (Text.Utf8.lossy name)))]
  | .inserted dir entry =>
    [dirField dir, ("name_hash", .number (entry.hash .plain).toNat),
      ("encname_hash", .number (entry.hash .encrypted).toNat), entryField entry]
  | .confirmed dir entry => [dirField dir, entryField entry]
  | .inconsistent dir generation entry =>
    [dirField dir, ("generation", .number generation.toNat),
      ("entry_generation", .number entry.generation.toNat), entryField entry]
  | .expiredBySwap dir active => [dirField dir, ("active", .text active.title)]
  | .expiredEntry dir entry => [dirField dir, entryField entry]
  | .beganUpdate dir before after =>
    [dirField dir, ("from", .number before.toNat), ("to", .number after.toNat)]
  | .endedUpdate dir generation freed =>
    [dirField dir, ("generation", .number generation.toNat), ("freed", .number freed)]
  | .abortedUpdate dir generation => [dirField dir, ("generation", .number generation.toNat)]
  | .purged dir freed => [dirField dir, ("freed", .number freed)]
  | .freedEntry dir entry => [dirField dir, entryField entry]
  | .reacquired dir => [dirField dir]
  | .upgradeFailed dir => [dirField dir]

end Event

end NameCache
