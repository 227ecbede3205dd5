/-
  Tables of entries by the hash of one of their names.

  A table has a number of buckets and a number of locks, both powers of two, no more locks than
  buckets.  The bucket of a hash is its remainder by the number of buckets, and bucket `b` belongs
  to the stripe of the lock `b % locks`; the buckets of a stripe are the lists of one `SlotLists`.

  A bucket holds the numbers of its entries, newest first.  Linking an entry writes the node it got
  into the entry itself, which is how it is found again to be unlinked; so the operations act on
  the entries and the table together.
-/
import NameCache.SlotLists

namespace NameCache

/-- Entries together with something that indexes them. -/
structure Indexed (τ : Type) where
  entries : Entries
  index : τ

namespace Indexed

variable {τ α : Type}

/-- An operation on the index alone. -/
def onIndex (op : Step τ α) : Step (Indexed τ) α :=
  Step.focus (·.index) (fun s t => { s with index := t }) op

/-- Change entry `e`. -/
def editEntry (e : Nat) (f : Entry → Entry) : Step (Indexed τ) Unit :=
  modify fun s => { s with entries := s.entries.modify e f }

end Indexed

/-- A hash table of entries. -/
structure Table where
  kind : NameKind
  buckets : Nat
  locks : Nat
  /-- The buckets of each lock. -/
  stripes : Array (SlotLists Nat)

namespace Table

/-- The counts that a table can have. -/
def Geometry (buckets locks : Nat) : Prop :=
  buckets.isPowerOfTwo ∧ locks.isPowerOfTwo ∧ locks ≤ buckets

instance (buckets locks : Nat) : Decidable (Geometry buckets locks) :=
  inferInstanceAs (Decidable (_ ∧ _ ∧ _))

/-- A table without entries. -/
def empty (kind : NameKind) (buckets locks : Nat) : Table :=
  { kind, buckets, locks, stripes := Array.replicate locks (.empty (buckets / locks)) }

/-- A table without entries, if the counts are fit for one. -/
def create (kind : NameKind) (buckets locks : Nat) : Except Fault Table :=
  if Geometry buckets locks then .ok (empty kind buckets locks)
  else .error (.badGeometry buckets locks)

/-! ## Where a hash belongs -/

/-- The bucket of a hash. -/
def bucketIndex (t : Table) (hash : UInt32) : Nat := hash.toNat % t.buckets

/-- The lock of a hash, which is also the lock of its bucket. -/
def lockIndex (t : Table) (hash : UInt32) : Nat := hash.toNat % t.locks

/-- The list of a bucket within its stripe. -/
def listIndex (t : Table) (hash : UInt32) : Nat := t.bucketIndex hash / t.locks

/-! ## Looking -/

/-- The entries in the bucket of a hash, newest first. -/
def bucket (t : Table) (hash : UInt32) : List Nat :=
  match t.stripes[t.lockIndex hash]? with
  | some stripe => stripe.values (t.listIndex hash)
  | none => []

/-- The first entry in the bucket of a hash that `p` accepts. -/
def find (t : Table) (hash : UInt32) (p : Nat → Bool) : Option Nat := (t.bucket hash).find? p

/-- The number of entries linked. -/
def length (t : Table) : Nat := t.stripes.foldl (fun n stripe => n + stripe.total) 0

/-- Whether no entry is linked. -/
def isEmpty (t : Table) : Bool := t.length == 0

/-! ## Linking and unlinking -/

/-- An operation on the stripe of a hash. -/
def onStripe {α : Type} (hash : UInt32) (op : Step (SlotLists Nat) α) : Step Table α := fun t =>
  match t.stripes[t.lockIndex hash]? with
  | none => .error (.outOfBounds t.stripes.size (t.lockIndex hash)) t
  | some stripe =>
    Step.focus (fun _ => stripe)
      (fun t stripe => { t with stripes := t.stripes.setIfInBounds (t.lockIndex hash) stripe }) op t

/-- Put an entry at the front of the bucket of its hash; its node. -/
def push (hash : UInt32) (e : Nat) : Step Table Nat := do
  let list := (← get).listIndex hash
  onStripe hash (SlotLists.pushFront list e)

/-- Take a node out of the stripe of a hash; the entry that was there. -/
def take (hash : UInt32) (node : Nat) : Step Table (Option Nat) :=
  onStripe hash (SlotLists.remove node)

/-- Link entry `e` at the front of its bucket. -/
def insert (e : Nat) : Step (Indexed Table) Unit := do
  let s ← get
  let kind := s.index.kind
  let node ← Indexed.onIndex (push ((s.entries.entry e).hash kind) e)
  Indexed.editEntry e (·.withBucketNode kind (some node))

/-- Unlink entry `e`, which has to be linked here. -/
def remove (e : Nat) : Step (Indexed Table) Unit := do
  let s ← get
  let kind := s.index.kind
  let entry := s.entries.entry e
  match entry.bucketNode kind with
  | none => throw (.notLinked kind entry)
  | some node =>
    let taken ← Indexed.onIndex (take (entry.hash kind) node)
    if taken = some e then Indexed.editEntry e (·.withBucketNode kind none)
    else throw (.corruptLink kind entry)

/-- The table as a text. -/
def describe (t : Table) : String :=
  Text.Record.abridged "BucketTable" [
    ("kind", t.kind.title),
    ("buckets", toString t.buckets),
    ("locks", toString t.locks)]

/-! ## Newest first -/

example : (do
    let _ ← push 5 0
    let _ ← push 4 1
    let _ ← push 7 2
    return (← get).bucket 5 : Step Table (List Nat)).run' (empty .plain 2 1) = some [2, 0] := by
  decide +kernel

end Table

end NameCache
