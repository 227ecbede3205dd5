/-
  Entries: a name, its encrypted form, and the key that encrypted it.

  An entry stands in three lists at once: one of its directory's two lists, a bucket of the table
  of plain names, and a bucket of the table of encrypted names.  It knows its node in each.  It is
  live for as long as it holds its key; a destroyed entry can still be looked at by whoever kept a
  reference to it.
-/
import NameCache.Digest
import NameCache.Text.Quoted
import NameCache.Text.Record

namespace NameCache

open Text

/-- Which of an entry's two names is meant. -/
inductive NameKind where
  | plain
  | encrypted
  deriving DecidableEq, Repr, Inhabited

namespace NameKind

/-- The kind as shown in texts. -/
def title : NameKind → String
  | .plain => "Plain"
  | .encrypted => "Encrypted"

end NameKind

/-- A pair of names of one directory. -/
structure Entry where
  /-- The number of the directory it belongs to. -/
  dir : UInt64
  name : Bytes
  encname : Bytes
  /-- The label of its key, until the entry is destroyed. -/
  key : Option String
  /-- The generation it was last confirmed in; zero when unconfirmed. -/
  generation : UInt64 := 0
  /-- Its node in the lists of its directory. -/
  dirNode : Option Nat := none
  /-- Its node in the table of plain names. -/
  nameNode : Option Nat := none
  /-- Its node in the table of encrypted names. -/
  encnameNode : Option Nat := none
  deriving DecidableEq, Repr, Inhabited

namespace Entry

/-- The name of the given kind. -/
def text (entry : Entry) : NameKind → Bytes
  | .plain => entry.name
  | .encrypted => entry.encname

/-- The hash of the name of the given kind. -/
def hash (entry : Entry) (kind : NameKind) : UInt32 := Digest.ofName entry.dir (entry.text kind)

/-- The node in the table of the given kind. -/
def bucketNode (entry : Entry) : NameKind → Option Nat
  | .plain => entry.nameNode
  | .encrypted => entry.encnameNode

/-- The entry with another node in the table of the given kind. -/
def withBucketNode (entry : Entry) (kind : NameKind) (node : Option Nat) : Entry :=
  match kind with
  | .plain => { entry with nameNode := node }
  | .encrypted => { entry with encnameNode := node }

/-- Whether the entry belongs to directory `dir` and has the given name.  Equal hashes follow from
    that and need no comparing. -/
def named (entry : Entry) (dir : UInt64) (kind : NameKind) (name : Bytes) : Bool :=
  entry.dir == dir && entry.text kind == name

/-- Whether the entry still holds its key. -/
def live (entry : Entry) : Bool := entry.key.isSome

/-- A name as shown in texts: decoded with every flaw replaced, and quoted. -/
def shown (name : Bytes) : String := Quoted.quote (Utf8.lossy name)

/-- The entry as a text. -/
def describe (entry : Entry) : String :=
  Record.abridged "DirCacheEntry" [
    ("dir_id", toString entry.dir.toNat),
    ("name", shown entry.name),
    ("encname", shown entry.encname),
    ("generation", toString entry.generation.toNat),
    ("live", Record.flag entry.live)]

end Entry

/-- All entries ever made, each under the number of its making. -/
abbrev Entries := Array Entry

namespace Entries

/-- Entry number `e`. -/
def entry (entries : Entries) (e : Nat) : Entry := entries[e]?.getD default

end Entries

end NameCache
