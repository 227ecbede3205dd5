/-
  A directory without its links.

  What the operations of a directory decide by, and what they bring about, can be told without a
  link or a table: the two lists as lists of entries, the generation, and of each entry its names,
  its key and its generation.  `Ledger` is that part of an opened directory, and every operation
  has its counterpart on it, which is a plain function and cannot stop.

  `Ledger.Sound` is what holds between operations.  Its parts hold only together: an active entry
  has the directory's generation because outside an update the generation drops to zero as soon as
  anything is stale, and because an update starts with nothing active.
-/
import NameCache.Directory.Action
import NameCache.Proofs.Entries

namespace NameCache

/-! ## Entries that get the same generation -/

namespace Entries

/-- The entries after some of them got a generation. -/
def stampAll (generation : UInt64) (es : List Nat) (entries : Entries) : Entries :=
  es.foldl (fun entries e => entries.modify e fun entry => { entry with generation }) entries

variable {generation : UInt64} {es : List Nat} {entries : Entries}

theorem stampAll_cons (e : Nat) : stampAll generation (e :: es) entries =
    stampAll generation es (entries.modify e fun entry => { entry with generation }) := rfl

@[simp] theorem size_stampAll : (stampAll generation es entries).size = entries.size := by
  induction es generalizing entries with
  | nil => rfl
  | cons e rest ih => rw [stampAll_cons, ih, size_modify]

/-- Whatever else is asked of an entry, its generation does not matter to the answer. -/
theorem property_stampAll {β : Type} (p : Entry → β)
    (h : ∀ (x : Entry) (g : UInt64), p { x with generation := g } = p x) (d : Nat) :
    p ((stampAll generation es entries).entry d) = p (entries.entry d) := by
  induction es generalizing entries with
  | nil => rfl
  | cons e rest ih =>
    rw [stampAll_cons, ih]
    exact property_modify p (fun x => h x generation) d

end Entries

/-- The part of an opened directory that neither links nor tables have to do with. -/
@[ext]
structure Ledger where
  id : UInt64
  generation : UInt64
  updating : Bool
  /-- The active entries, the last confirmed one first. -/
  active : List Nat
  stale : List Nat
  /-- All entries, without their links. -/
  entries : Entries
  tally : Tally
  keys : List KeyEvent

/-- The directory as its ledger has it. -/
def Opened.ledger (s : Opened) : Ledger where
  id := s.dir.id
  generation := s.dir.generation
  updating := s.dir.updating
  active := s.dir.activeEntries
  stale := s.dir.staleEntries
  entries := s.entries.map Entry.bare
  tally := s.tally
  keys := s.log.keys

namespace Ledger

/-- Whether an entry is on one of the two lists. -/
def Holds (l : Ledger) (e : Nat) : Prop := e ∈ l.active ∨ e ∈ l.stale

instance (l : Ledger) (e : Nat) : Decidable (l.Holds e) := inferInstanceAs (Decidable (_ ∨ _))

/-! ## The operations -/

/-- Give an entry a generation. -/
def stamp (l : Ledger) (e : Nat) (generation : UInt64) : Ledger :=
  { l with entries := l.entries.modify e fun entry => { entry with generation } }

/-- Exchange the two lists. -/
def exchange (l : Ledger) : Ledger := { l with active := l.stale, stale := l.active }

/-- Move the active entries over one by one, dropping the generation of each. -/
def demote (l : Ledger) : Ledger :=
  { l with
    active := []
    stale := l.active.reverse ++ l.stale
    entries := l.entries.stampAll 0 l.active }

/-- Drop the generation and demote every active entry. -/
def expire (expiry : Expiry) (l : Ledger) : Ledger :=
  let moved := if expiry = .swap ∧ l.stale = [] then l.exchange else l.demote
  { moved with generation := 0, tally := l.tally.addExpiration }

/-- Confirm an entry in the present generation. -/
def renew (l : Ledger) (e : Nat) : Ledger :=
  { l.stamp e l.generation with active := e :: l.active.erase e, stale := l.stale.erase e }

/-- Put an entry that is on no list with the stale ones. -/
def park (l : Ledger) (e : Nat) : Ledger :=
  if l.Holds e then l else { l with stale := e :: l.stale }

/-- Put an entry that is on no list with the active ones. -/
def enrol (l : Ledger) (e : Nat) : Ledger :=
  if l.Holds e then l else { l with active := e :: l.active }

/-- Put an entry where the state of the directory wants it. -/
def confirm (expiry : Expiry) (e : Nat) (l : Ledger) : Ledger :=
  if l.updating then l.renew e
  else if l.stale ≠ [] ∨ (l.entries.entry e).generation ≠ l.generation then
    ((l.expire expiry).stamp e 0).park e
  else l.enrol e

/-- Make an entry, which is on no list yet. -/
def make (l : Ledger) (label : String) (name encname : Bytes) : Ledger :=
  { l with
    entries := l.entries.push { dir := l.id, name, encname, key := some label }
    keys := .acquired label :: l.keys }

/-- Make an entry and confirm it. -/
def insert (expiry : Expiry) (label : String) (name encname : Bytes) (l : Ledger) : Ledger :=
  let placed := (l.make label name encname).confirm expiry l.entries.size
  { placed with tally := placed.tally.addInsert }

/-- Destroy an entry. -/
def drop (l : Ledger) (e : Nat) : Ledger :=
  { l with
    active := l.active.erase e
    stale := l.stale.erase e
    entries := l.entries.modify e fun entry => { entry with key := none }
    tally := l.tally.addFree
    keys := (l.entries.entry e).key.elim l.keys fun label => .released label :: l.keys }

/-- Destroy entries in order. -/
def dropAll (l : Ledger) (es : List Nat) : Ledger := es.foldl drop l

/-- Destroy every entry, stale ones first. -/
def purge (l : Ledger) : Ledger := (l.dropAll l.stale).dropAll l.active

/-- Whether an update to a generation changes anything. -/
def Begins (l : Ledger) (generation : UInt64) : Prop := generation ≠ 0 ∧ l.generation ≠ generation

instance (l : Ledger) (generation : UInt64) : Decidable (l.Begins generation) :=
  inferInstanceAs (Decidable (_ ∧ _))

/-- Start an update. -/
def beginUpdate (expiry : Expiry) (generation : UInt64) (l : Ledger) : Ledger :=
  if l.Begins generation then
    { (if l.active = [] then l else l.expire expiry) with generation, updating := true }
  else l

/-- Finish an update. -/
def endUpdate (l : Ledger) : Ledger :=
  if l.updating then { l.dropAll l.stale with updating := false } else l

/-- Give up an update. -/
def abortUpdate (expiry : Expiry) (l : Ledger) : Ledger :=
  if l.updating then { l.expire expiry with updating := false } else l

/-! ## Demoting, entry by entry -/

theorem demote_nil {l : Ledger} (active : l.active = []) : l.demote = l := by
  rw [demote, active]
  ext1
  case active => exact active.symm
  all_goals rfl

/-- Demoting all of the active entries is demoting the first one, and then the rest. -/
theorem demote_cons {l : Ledger} {e : Nat} {rest : List Nat} (active : l.active = e :: rest) :
    l.demote = demote { l.stamp e 0 with active := rest, stale := e :: l.stale } := by
  ext1
  case stale =>
    show l.active.reverse ++ l.stale = rest.reverse ++ e :: l.stale
    rw [active, List.reverse_cons, List.append_assoc]
    rfl
  case entries =>
    show l.entries.stampAll 0 l.active = _
    rw [active, Entries.stampAll_cons]
    rfl
  all_goals rfl

end Ledger

end NameCache
