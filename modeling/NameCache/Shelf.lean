/-
  Several tables over the same entries.

  Entries are made here without a directory, and each may be linked into any of the tables.  An
  entry has one link for each kind of name, so linking it into a second table of a kind loses the
  way back to its node in the first.
-/
import NameCache.Table
import NameCache.Entry.Create

namespace NameCache

/-- Entries and tables. -/
structure Shelf where
  entries : Entries := #[]
  tables : Array Table := #[]

namespace Shelf

/-- Tables of the given kinds and geometries, without entries. -/
def create (plans : List (NameKind × Nat × Nat)) : Except Fault Shelf := do
  let tables ← plans.mapM fun (kind, buckets, locks) => Table.create kind buckets locks
  return { tables := tables.toArray }

/-- Make an entry; its number. -/
def makeEntry (dir : UInt64) (name encname : Bytes) (label : String) : Step Shelf Nat := do
  let made ← Step.require (Entry.create dir name encname label)
  let e := (← get).entries.size
  modify fun s => { s with entries := s.entries.push made }
  return e

/-- The entry with number `e`, which has to exist. -/
def entry (e : Nat) : Step Shelf Entry := fun s =>
  match s.entries[e]? with
  | none => .error (.outOfBounds s.entries.size e) s
  | some entry => .ok entry s

/-- Table number `t`, which has to exist. -/
def table (t : Nat) : Step Shelf Table := fun s =>
  match s.tables[t]? with
  | none => .error (.outOfBounds s.tables.size t) s
  | some table => .ok table s

/-- An operation on the entries and one table. -/
def onTable {α : Type} (t : Nat) (op : Step (Indexed Table) α) : Step Shelf α := do
  let table ← table t
  Step.focus (fun s => ⟨s.entries, table⟩)
    (fun s x => { s with entries := x.entries, tables := s.tables.setIfInBounds t x.index }) op

/-- Link entry `e` into table `t`. -/
def insert (t e : Nat) : Step Shelf Unit := do
  let _ ← entry e
  onTable t (Table.insert e)

/-- Unlink entry `e` from table `t`. -/
def remove (t e : Nat) : Step Shelf Unit := do
  let _ ← entry e
  onTable t (Table.remove e)

/-- The first entry in the bucket of a name that belongs to directory `dir` and has that name, of
    the given kind; or the first entry there at all, if `any`. -/
def find (t : Nat) (dir : UInt64) (kind : NameKind) (name : Bytes) (any : Bool) :
    Step Shelf (Option Nat) := do
  let table ← table t
  let entries := (← get).entries
  return table.find (Digest.ofName dir name) fun e =>
    any || (entries.entry e).named dir kind name

end Shelf

end NameCache
