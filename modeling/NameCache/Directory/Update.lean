/-
  Entering, confirming, demoting and destroying entries.

  During an update each entry seen by the scan is confirmed: it gets the generation of the update
  and goes to the front of the active list.  The end of the update destroys what was not confirmed.

  Outside an update an entry that agrees with the directory is kept as it is.  One that does not,
  or any entry while others are stale, shows that the directory is not what the cache believed:
  every active entry is demoted to the stale list, the generation is dropped, and the entry is
  parked on the stale list too.

  Demoting exchanges the two lists when nothing is stale, and else walks the active list.  `Expiry`
  names the choice, so that the exchange can be compared with a walk in every case.
-/
import NameCache.Directory.Basic
import NameCache.Entry.Create

namespace NameCache

/-- How active entries are demoted. -/
inductive Expiry where
  /-- By exchanging the lists if nothing is stale, and else by a walk. -/
  | swap
  /-- By a walk in every case. -/
  | walk
  deriving DecidableEq, Repr

namespace Opened

/-! ## Demoting -/

/-- Move the active entries to the stale list one by one, from the front, and drop the generation
    of each.  `fuel` is the number of entries on the active list. -/
def demoteActive : Nat → Step Opened Unit
  | 0 => do
    if (← activeFront).isSome then throw .endless
  | fuel + 1 => do
    match ← activeFront with
    | none => pure ()
    | some node =>
      let d := (← get).dir
      match d.lists.value? node with
      | some e =>
        editEntry e fun entry => { entry with generation := 0 }
        emit (.expiredEntry d.id (← entry e))
      | none => pure ()
      onLists (SlotLists.moveToFront node d.active.other.list)
      demoteActive fuel

/-- Exchange the two lists. -/
def swapLists : Step Opened Unit := do
  editDir fun d => { d with active := d.active.other }
  let d := (← get).dir
  emit (.expiredBySwap d.id d.active)

/-- The active list has to be empty. -/
def requireNoActive : Step Opened Unit := do
  let left := (← get).dir.activeCount
  if left ≠ 0 then throw (.activeLeft left)

/-- Drop the generation and demote every active entry. -/
def expire (expiry : Expiry) : Step Opened Unit := do
  editDir fun d => { d with generation := 0 }
  let d := (← get).dir
  if expiry = .swap ∧ d.staleCount = 0 then swapLists else demoteActive d.activeCount
  editTally Tally.addExpiration
  requireNoActive

/-! ## Confirming and inserting -/

/-- Put entry `e` at the front of the list of a side, as a new node. -/
def enlist (e : Nat) (side : Side) : Step Opened Unit := do
  let node ← onLists (SlotLists.pushFront side.list e)
  editEntry e fun entry => { entry with dirNode := some node }

/-- Put entry `e` where the state of the directory wants it.  `node` is its node in the directory's
    lists, if it has one already. -/
def confirm (expiry : Expiry) (e : Nat) (node : Option Nat) : Step Opened Unit := do
  let d := (← get).dir
  let before ← entry e
  if d.updating then
    emit (.confirmed d.id before)
    editEntry e fun entry => { entry with generation := d.generation }
    match node with
    | some node => onLists (SlotLists.moveToFront node d.active.list)
    | none => enlist e d.active
  else if d.staleCount ≠ 0 ∨ before.generation ≠ d.generation then
    emit (.inconsistent d.id d.generation before)
    expire expiry
    editEntry e fun entry => { entry with generation := 0 }
    if node.isNone then enlist e (← get).dir.active.other
  else if node.isNone then
    enlist e d.active

/-- Cache a pair of names with a reference on a key; the number of the entry. -/
def insert (expiry : Expiry) (label : String) (name encname : Bytes) : Step Opened Nat := do
  let id := (← get).dir.id
  let made ← Step.require (Entry.create id name encname label)
  let e := (← get).entries.size
  modify fun s => { s with entries := s.entries.push made, log := s.log.acquire label }
  confirm expiry e none
  onPool (Pool.link e)
  editTally Tally.addInsert
  emit (.inserted id (← entry e))
  return e

/-- The node of entry `e` in the lists of the directory, if it is there. -/
def nodeOf (s : Opened) (e : Nat) : Option Nat :=
  (s.entries.entry e).dirNode.filter fun node => s.dir.lists.value? node == some e

/-- Confirm an entry that is cached already. -/
def update (expiry : Expiry) (e : Nat) : Step Opened Unit := do
  let s ← get
  let known := s.entries.entry e
  if known.dir ≠ s.dir.id then throw (.wrongDirectory known s.dir.id)
  match s.nodeOf e with
  | none => throw (.destroyedEntry known)
  | some node => confirm expiry e (some node)

/-! ## Destroying -/

/-- Unlink the entry at a node from all three lists and give back its key. -/
def free (node : Nat) : Step Opened Unit := do
  let id := (← get).dir.id
  match ← onLists (SlotLists.remove node) with
  | none => throw (.unlinkedNode id)
  | some e =>
    emit (.freedEntry id (← entry e))
    editEntry e fun entry => { entry with dirNode := none }
    onPool (Pool.unlink e)
    match (← entry e).key with
    | some label =>
      editEntry e fun entry => { entry with key := none }
      modify fun s => { s with log := s.log.release label }
    | none => pure ()
    editTally Tally.addFree

/-- Destroy the entries of a list from the front; their number.  `fuel` is the number of entries on
    the list. -/
def freeList (list : Nat) : Nat → Step Opened Nat
  | 0 => do
    if (← onLists (SlotLists.front list)).isSome then throw .endless
    return 0
  | fuel + 1 => do
    match ← onLists (SlotLists.front list) with
    | none => return 0
    | some node =>
      free node
      return (← freeList list fuel) + 1

/-- Destroy every entry, stale ones first; their number. -/
def purge : Step Opened Nat := do
  let d := (← get).dir
  let stale ← freeList d.active.other.list d.staleCount
  let active ← freeList d.active.list d.activeCount
  let freed := stale + active
  if freed > 0 then emit (.purged d.id freed)
  return freed

/-! ## Updates -/

/-- Start an update to a generation.  Zero, or the present generation, changes nothing; otherwise
    the active entries are demoted and wait to be confirmed. -/
def beginUpdate (expiry : Expiry) (generation : UInt64) : Step Opened Unit := do
  let d := (← get).dir
  if generation ≠ 0 ∧ d.generation ≠ generation then
    emit (.beganUpdate d.id d.generation generation)
    if d.activeCount ≠ 0 then
      if !d.updating && d.staleCount != 0 then throw .staleBesideActive
      expire expiry
    editDir fun d => { d with generation, updating := true }
    requireNoActive

/-- Outside an update, at most one list has entries. -/
def requireOneList : Step Opened Unit := do
  if !(← onLists (SlotLists.isEmpty 0)) then
    if !(← onLists (SlotLists.isEmpty 1)) then throw .bothListsPopulated

/-- Finish an update by destroying every entry that was not confirmed; their number. -/
def endUpdate : Step Opened Nat := do
  let d := (← get).dir
  if d.updating then
    let freed ← freeList d.active.other.list d.staleCount
    editDir fun d => { d with updating := false }
    emit (.endedUpdate d.id d.generation freed)
    return freed
  else
    requireOneList
    return 0

/-- Give up an update: every entry becomes stale and the generation is dropped. -/
def abortUpdate (expiry : Expiry) : Step Opened Unit := do
  let d := (← get).dir
  if d.updating then
    emit (.abortedUpdate d.id d.generation)
    expire expiry
    editDir fun d => { d with updating := false }
  requireOneList

end Opened

end NameCache
