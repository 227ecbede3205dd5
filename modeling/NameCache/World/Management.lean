/-
  Managers, pools, and the coming and going of directories.

  A manager fixes the geometry of its pools when it is made.  It makes directories, each with a
  number of its own, and takes pools back.  Giving back a separate pool tears it down if nothing
  else refers to it; giving back the shared pool changes nothing, and giving back any other pool to
  a manager that shares one is a fault.

  A directory that is dropped destroys its entries first.
-/
import NameCache.World.Basic

namespace NameCache

namespace World

/-! ## Pools -/

/-- Make a pool; its number. -/
def addPool (buckets locks : Nat) : Step World Nat := do
  let pool ← Step.require (Pool.create buckets locks)
  let p := (← get).pools.size
  modify fun w => { w with pools := w.pools.push pool }
  return p

/-- The pool that a manager provides. -/
def providePool : Provision → Step World Nat
  | .shared p => return p
  | .separate buckets locks => do
    emit (.allocatingPool buckets locks)
    addPool buckets locks

/-- Hand out a handle on a pool; its number. -/
def addHandle (p : Nat) : Step World Nat := do
  let h := (← get).handles.size
  modify fun w => { w with handles := w.handles.push { pool := p } }
  return h

/-- Give up a handle. -/
def dropHandle (h : Nat) : Step World Unit :=
  modify fun w => { w with
    handles := w.handles.modify h fun handle => { handle with held := false } }

/-- The first handle still held on the same pool as handle `h`, other than `h` itself. -/
def sameAs (w : World) (h : Nat) : Option Nat :=
  (List.range w.handles.size).find? fun i => i != h && w.handle? i == (w.handles[h]?.map (·.pool))

/-- Take a pool back.  The reference that comes with it is no longer counted. -/
def takeBack (provision : Provision) (p : Nat) : Step World Unit := do
  match provision with
  | .shared shared => if shared ≠ p then throw .foreignPool
  | .separate _ _ =>
    let w ← get
    if w.references p = 0 then
      if !(w.pool p).isEmpty then emit (.freeingPoolWithEntries (w.pool p).length)
      emit .freedPool
    else emit .poolStillReferenced

/-! ## Managers -/

/-- The way a manager with these settings provides pools; a shared one is made at once. -/
def makeProvision (shared : Bool) (buckets locks : Nat) : Step World Provision := do
  if shared then return .shared (← addPool buckets locks)
  else return .separate buckets locks

/-- Make a manager whose pools have a given geometry; its number. -/
def addManagerOf (settings : Settings) (buckets locks : Nat) : Step World Nat := do
  let provision ← makeProvision settings.shared buckets locks
  let m := (← get).managers.size
  modify fun w => { w with
    managers := w.managers.push
      (some { settings, buckets, locks, provision, enabled := settings.enabled })
    tallies := w.tallies.push {} }
  return m

/-- Make a manager, on a machine that runs so many threads at a time; its number. -/
def addManager (threads : Nat) (settings : Settings) : Step World Nat := do
  let buckets := settings.bucketCount
  let locks ← Step.require (settings.lockCount threads buckets)
  emit (.initialized buckets locks settings.shared settings.enabled)
  addManagerOf settings buckets locks

/-- Turn the switch of manager `m`. -/
def setEnabled (m : Nat) (enabled : Bool) : Step World Unit := do
  modify fun w => { w with
    managers := w.managers.modify m (·.map fun manager => { manager with enabled }) }
  emit (.switched enabled)

/-- Shut manager `m` down, whose present state is `manager`. -/
def shutdown (m : Nat) (manager : Manager) : Step World Unit := do
  let entries := ((← get).tally m).entries
  if entries ≠ 0 then emit (.shutdownWithEntries entries)
  emit (.shutdown manager.buckets manager.settings.shared)
  modify fun w => { w with managers := w.managers.setIfInBounds m none }

/-! ## Directories -/

/-- A new directory of manager `m` on pool `p`, which has no place in the world yet. -/
def newDirectory (m : Nat) (manager : Manager) (p : Nat) : Step World Directory := do
  let id := manager.nextId
  modify fun w => { w with
    managers := w.managers.setIfInBounds m (some { manager with nextId := id + 1 }) }
  emit (.created id)
  return { id, manager := m, pool := p }

/-- Give a directory its place; its number. -/
def addDirectory (dir : Directory) : Step World Nat := do
  let d := (← get).directories.size
  modify fun w => { w with directories := w.directories.push (some dir) }
  return d

/-- Destroy the entries of a directory that has no place in the world any more. -/
def finish (dir : Directory) : Step World Unit :=
  onLoose dir do
    let freed ← Opened.purge
    Opened.emit (.destroyed dir.id freed)

/-- Drop directory `d`, whose present state is `dir`. -/
def dropDirectory (d : Nat) (dir : Directory) : Step World Unit := do
  modify fun w => { w with directories := w.directories.setIfInBounds d none }
  finish dir

/-- Make and drop a directory of manager `m` on pool `p`, `n` times over. -/
def passDirectories (m p : Nat) : Nat → Step World Unit
  | 0 => pure ()
  | n + 1 => do
    match (← get).manager? m with
    | none => pure ()
    | some manager =>
      let dir ← newDirectory m manager p
      finish dir
      passDirectories m p n

end World

end NameCache
