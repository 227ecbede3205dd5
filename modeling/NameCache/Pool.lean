/-
  Pools: the pair of tables that directories look their names up in.

  One table is by plain name, the other by encrypted name, and they have the same geometry.  An
  entry is linked into both or into neither.
-/
import NameCache.Table

namespace NameCache

/-- The two tables. -/
structure Pool where
  names : Table
  encnames : Table

namespace Pool

/-- A pool without entries, if the counts are fit for its tables. -/
def create (buckets locks : Nat) : Except Fault Pool := do
  let names ← Table.create .plain buckets locks
  let encnames ← Table.create .encrypted buckets locks
  return { names, encnames }

/-- The table of a kind of name. -/
def table (p : Pool) : NameKind → Table
  | .plain => p.names
  | .encrypted => p.encnames

/-- Buckets of each table. -/
def buckets (p : Pool) : Nat := p.names.buckets

/-- Locks of each table. -/
def locks (p : Pool) : Nat := p.names.locks

/-- The number of entries linked. -/
def length (p : Pool) : Nat := p.names.length

/-- Whether neither table has an entry. -/
def isEmpty (p : Pool) : Bool := p.names.isEmpty && p.encnames.isEmpty

/-- An operation on the entries and the table of plain names. -/
def onNames {α : Type} (op : Step (Indexed Table) α) : Step (Indexed Pool) α :=
  Step.focus (fun s => ⟨s.entries, s.index.names⟩)
    (fun s t => ⟨t.entries, { s.index with names := t.index }⟩) op

/-- An operation on the entries and the table of encrypted names. -/
def onEncnames {α : Type} (op : Step (Indexed Table) α) : Step (Indexed Pool) α :=
  Step.focus (fun s => ⟨s.entries, s.index.encnames⟩)
    (fun s t => ⟨t.entries, { s.index with encnames := t.index }⟩) op

/-- Link entry `e` into both tables. -/
def link (e : Nat) : Step (Indexed Pool) Unit := do
  onNames (Table.insert e)
  onEncnames (Table.insert e)

/-- Unlink entry `e` from both tables. -/
def unlink (e : Nat) : Step (Indexed Pool) Unit := do
  onNames (Table.remove e)
  onEncnames (Table.remove e)

/-- The pool as a text. -/
def describe (p : Pool) : String :=
  Text.Record.whole "DirCachePool" [
    ("names", p.names.describe),
    ("encnames", p.encnames.describe)]

end Pool

end NameCache
