/-
  Reading the log.

  A log only grows, so what a request recorded is what the log after it has on top of the log before
  it: `since` takes that part off and turns it round.  `onto` puts a log on top of another.
-/
import NameCache.Log

namespace NameCache

/-- The events of giving a pool back.  They tell whether anything else refers to the pool. -/
def Event.ofPool : Event → Bool
  | .freeingPoolWithEntries _ => true
  | .freedPool => true
  | .poolStillReferenced => true
  | _ => false

namespace Log

/-- What was recorded in one log on top of another one. -/
def onto (gained base : Log) : Log :=
  { keys := gained.keys ++ base.keys, events := gained.events ++ base.events }

theorem onto_onto (more gained base : Log) :
    more.onto (gained.onto base) = (more.onto gained).onto base := by
  rw [onto, onto, onto, onto, List.append_assoc, List.append_assoc]

/-- Two records that differ at most in the events of giving pools back. -/
structure Alike (log log' : Log) : Prop where
  keys : log'.keys = log.keys
  events : log'.events.filter (!·.ofPool) = log.events.filter (!·.ofPool)

theorem Alike.refl (log : Log) : log.Alike log := ⟨rfl, rfl⟩

theorem Alike.onto {more more' gained gained' : Log} (later : more.Alike more')
    (first : gained.Alike gained') : (more.onto gained).Alike (more'.onto gained') where
  keys := by rw [Log.onto, Log.onto, later.keys, first.keys]
  events := by
    rw [Log.onto, Log.onto, List.filter_append, List.filter_append, later.events, first.events]

/-- Record events in order. -/
def emitAll (log : Log) (events : List Event) : Log :=
  { log with events := events.reverse ++ log.events }

/-- Nothing is recorded since the present moment. -/
theorem since_self (log : Log) : log.since log = ([], []) := by
  rw [since, Nat.sub_self, Nat.sub_self, List.take_zero, List.take_zero]
  rfl

variable {log before : Log}

/-- What was recorded of keys since an earlier state of the log is what the log has gained. -/
theorem keys_since {recorded : List KeyEvent} (h : log.keys = recorded.reverse ++ before.keys) :
    (log.since before).1 = recorded := by
  rw [since, h, List.length_append, Nat.add_sub_cancel, List.take_left, List.reverse_reverse]

/-- So are the events. -/
theorem events_since {recorded : List Event} (h : log.events = recorded.reverse ++ before.events) :
    (log.since before).2 = recorded := by
  rw [since, h, List.length_append, Nat.add_sub_cancel, List.take_left, List.reverse_reverse]

end Log

end NameCache
