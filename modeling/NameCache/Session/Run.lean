/-
  Running commands.

  A command looks first whether everything it names exists, a directory before a manager and a
  manager before a pool handle, and then does its work.  A command that faults leaves the world as
  the fault found it, and the session goes on from there.
-/
import NameCache.Session.Command

namespace NameCache

/-- A command under way: it works on the world and may be refused. -/
abbrev Running (α : Type) := EStateM Refusal World α

namespace Running

variable {α : Type}

/-- An operation of the world, as part of a command. -/
def perform (op : Step World α) : Running α := fun w =>
  match op w with
  | .ok a w => .ok a w
  | .error fault w => .error (.fault fault) w

/-- Something that a number names. -/
def need (what : Missing) (find : World → Option α) : Running α := do
  match find (← get) with
  | some a => return a
  | none => throw (.missing what)

/-- Manager `m`. -/
def manager (m : Nat) : Running Manager := need .manager (·.manager? m)

/-- Directory `d`. -/
def directory (d : Nat) : Running Directory := need .directory (·.directory? d)

/-- The pool of handle `p`. -/
def pool (p : Nat) : Running Nat := need .pool (·.handle? p)

/-- Entry `e`. -/
def entry (e : Nat) : Running Entry := need .entry (·.entries[e]?)

/-- Take a handle on a pool. -/
def takeHandle (p : Nat) : Running Reply := do
  let h ← perform (World.addHandle p)
  return .handle h ((← get).sameAs h)

/-- Give handle `p` back to manager `m`. -/
def giveBack (p m : Nat) : Running Reply := do
  let manager ← manager m
  let owned ← pool p
  perform (World.dropHandle p)
  perform (World.takeBack manager.provision owned)
  return .done

/-- Look for a manager if one is named. -/
def checkManager : Option Nat → Running Unit
  | none => return
  | some m => do
    let _ ← manager m
    return

/-- Drop handle `p`. -/
def dropHandle (p : Nat) (m : Option Nat) : Running Reply := do
  checkManager m
  let _ ← pool p
  perform (World.dropHandle p)
  return .done

end Running

namespace World

/-- The counters of manager `m` beside its geometry. -/
def snapshot (w : World) (m : Nat) (manager : Manager) : Snapshot :=
  { buckets := manager.buckets, locks := manager.locks, shared := manager.settings.shared,
    tally := w.tally m }

/-- What a pool looks like. -/
def poolInfo (pool : Pool) : PoolInfo :=
  { buckets := pool.buckets, locks := pool.locks, length := pool.length,
    names := pool.names.length, encnames := pool.encnames.length, empty := pool.isEmpty }

/-- What a directory looks like. -/
def directoryInfo (w : World) (dir : Directory) : DirectoryInfo :=
  { id := dir.id, generation := dir.generation, status := dir.status, length := dir.length,
    activeCount := dir.activeCount, staleCount := dir.staleCount,
    active := dir.activeEntries.map fun e => (e, (w.entries.entry e).generation),
    poolLength := (w.pool dir.pool).length }

/-- An entry under its number, as it is now. -/
def shown (w : World) (e : Nat) : Nat × Entry := (e, w.entries.entry e)

end World

namespace Command

open Running

/-- What an action inside a directory answers. -/
def outcomeReply (w : World) : Action → Outcome → Reply
  | .insert .., .made e => .inserted e (w.entries.entry e).generation
  | .update e, _ => .updated (w.entries.entry e).generation
  | _, .found e => .found (e.map w.shown)
  | _, .freed n => .count n
  | _, .began g => .generation g
  | _, _ => .done

/-- Run an action inside a directory. -/
def act (d : Nat) (action : Action) : Running Reply := do
  let dir ← directory d
  match action with
  | .update e => let _ ← entry e
  | _ => pure ()
  let outcome ← perform (World.onDirectory d dir (action.run .swap))
  return outcomeReply (← get) action outcome

/-- Confirm the entry that an encrypted name finds. -/
def confirmFound (encname : Bytes) : Step Opened (Option Nat) := do
  let found ← Opened.lookupEncname encname
  match found with
  | some e => Opened.update .swap e
  | none => pure ()
  return found

/-- Run a command. -/
def run : Command → Running Reply
  | .managerInfo m => do
    let manager ← manager m
    return .manager manager ((← get).tally m).entries
  | .counters m => do
    let manager ← manager m
    return .counters ((← get).snapshot m manager)
  | .describeManager m => do
    let manager ← manager m
    let w ← get
    return .text (w.describeManager manager (w.tally m))
  | .setEnabled m enabled => do
    let _ ← manager m
    perform (World.setEnabled m enabled)
    return .flag (← manager m).enabled
  | .shutdown m => do
    let manager ← manager m
    perform (World.shutdown m manager)
    return .done
  | .takePool m => do
    let manager ← manager m
    takeHandle (← perform (World.providePool manager.provision))
  | .poolOf d => do takeHandle (← directory d).pool
  | .poolInfo p => do
    let p ← pool p
    return .pool (World.poolInfo ((← get).pool p))
  | .poolAlive p => do
    let handle ← need .pool (·.handles[p]?)
    return .flag ((← get).poolAlive handle.pool)
  | .describePool p => do
    let p ← pool p
    return .text ((← get).pool p).describe
  | .giveBack p m => Running.giveBack p m
  | .dropHandle p m => Running.dropHandle p m
  | .create m p => do
    let owner ← manager m
    let p ← match p with
      | some p => pool p
      | none => perform (World.providePool owner.provision)
    let dir ← perform (World.newDirectory m owner p)
    let d ← perform (World.addDirectory dir)
    return .created d dir.id
  | .skip m n => do
    let manager ← manager m
    let p ← perform (World.providePool manager.provision)
    perform (World.passDirectories m p n)
    return .done
  | .destroy d m => do
    let dir ← directory d
    let manager ← manager m
    perform (World.dropDirectory d dir)
    perform (World.takeBack manager.provision dir.pool)
    return .done
  | .drop d => do
    let dir ← directory d
    perform (World.dropDirectory d dir)
    return .done
  | .describeDirectory d => do return .text (← directory d).describe
  | .directoryInfo d => do
    let dir ← directory d
    return .directory ((← get).directoryInfo dir)
  | .within d action => act d action
  | .confirm d encname => do
    let dir ← directory d
    let found ← perform (World.onDirectory d dir (confirmFound encname))
    return .found (found.map (← get).shown)
  | .entryInfo e => return .entry (← entry e)
  | .acquireKey e => do
    match (← entry e).key with
    | none => return .number none
    | some label =>
      let h := (← get).held.size
      modify fun w => { w with held := w.held.push (some label), log := w.log.acquire label }
      return .number (some h)
  | .releaseKey h => do
    let label ← need .held (·.held? h)
    modify fun w => { w with held := w.held.setIfInBounds h none, log := w.log.release label }
    return .done

end Command

namespace Request

/-- Run a request: first the directory it is about has to exist, then its command runs. -/
def run (r : Request) : Running Reply := do
  match r.about with
  | some d => let _ ← Running.directory d
  | none => pure ()
  r.command.run

/-- The directory that an answer shows. -/
def shownDirectory (r : Request) (reply : Except Refusal Reply) : Option Nat :=
  match reply with
  | .ok (.created d _) => some d
  | _ => r.about

/-- Carry out a request. -/
def answer (r : Request) (w : World) : Answer × World :=
  let (reply, w') : Except Refusal Reply × World := match r.run w with
    | .ok reply w' => (.ok reply, w')
    | .error refusal w' => (.error refusal, w')
  let (keys, events) := w'.log.since w.log
  let directory := ((r.shownDirectory reply).bind w'.directory?).map w'.directoryInfo
  ({ reply, keys, events, directory }, w')

end Request

namespace World

/-- A world with managers of the given settings, made in order. -/
def start (threads : Nat) : List Settings → Step World Unit
  | [] => pure ()
  | s :: rest => do
    let _ ← addManager threads s
    start threads rest

/-- What is left of a world at the end of a session. -/
structure Remains where
  /-- The directory number, the generation and the liveness of every entry. -/
  entries : List (UInt64 × UInt64 × Bool)
  /-- How often references to a key were taken and given back, by label. -/
  keys : List (String × Nat × Nat)
  /-- The counters of each manager, unless it was shut down. -/
  counters : List (Option Snapshot)

/-- What is left. -/
def remains (w : World) : Remains :=
  { entries := w.entries.toList.map fun e => (e.dir, e.generation, e.live)
    keys := w.log.labels.map fun label => (label, w.log.acquisitions label, w.log.releases label)
    counters := (List.range w.managers.size).map fun m => (w.manager? m).map (w.snapshot m) }

/-- Carry out requests in order. -/
def answers (w : World) : List Request → List Answer × World
  | [] => ([], w)
  | r :: rest =>
    let (answer, next) := r.answer w
    let (more, last) := next.answers rest
    (answer :: more, last)

end World

end NameCache
