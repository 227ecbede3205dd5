/-
  Counters of a manager: how many entries exist, and how often things happened.

  Counters are 64-bit numbers that wrap.  They are for looking at and decide nothing.
-/
import NameCache.Fault

namespace NameCache

/-- The counters. -/
structure Tally where
  /-- Entries cached at present. -/
  entries : UInt64 := 0
  /-- Entries made. -/
  inserts : UInt64 := 0
  /-- Entries destroyed. -/
  frees : UInt64 := 0
  /-- Lookups that found an entry. -/
  hits : UInt64 := 0
  /-- Lookups that found none. -/
  misses : UInt64 := 0
  /-- Times a directory's entries were demoted. -/
  expirations : UInt64 := 0
  deriving DecidableEq, Repr, Inhabited

namespace Tally

/-- Count an entry made. -/
def addInsert (t : Tally) : Tally := { t with inserts := t.inserts + 1, entries := t.entries + 1 }

/-- Count an entry destroyed. -/
def addFree (t : Tally) : Tally := { t with frees := t.frees + 1, entries := t.entries - 1 }

/-- Count a lookup. -/
def addLookup (t : Tally) (found : Bool) : Tally :=
  if found then { t with hits := t.hits + 1 } else { t with misses := t.misses + 1 }

/-- Count a demotion. -/
def addExpiration (t : Tally) : Tally := { t with expirations := t.expirations + 1 }

/-- Forget what happened.  The number of entries that exist is not forgotten. -/
def reset (t : Tally) : Tally := { entries := t.entries }

/-- The share of lookups that found an entry, zero if there were none.  The number of lookups has
    to fit into 64 bits. -/
def hitRate (t : Tally) : Except Fault Float :=
  if t.hits.toNat + t.misses.toNat < UInt64.size then
    let total := t.hits + t.misses
    if total = 0 then .ok 0.0 else .ok (t.hits.toFloat / total.toFloat)
  else .error .sumOverflow

/-- The counters as a text. -/
def describe (t : Tally) : String :=
  Text.Record.whole "DirCacheStats" [
    ("entries", toString t.entries.toNat),
    ("inserts", toString t.inserts.toNat),
    ("frees", toString t.frees.toNat),
    ("lookup_hits", toString t.hits.toNat),
    ("lookup_misses", toString t.misses.toNat),
    ("expirations", toString t.expirations.toNat)]

end Tally

end NameCache
