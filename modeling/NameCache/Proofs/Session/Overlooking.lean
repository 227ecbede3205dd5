/-
  What is done without a manager or a handle that nobody names.

  A manager that was shut down, and a handle that was given up, leave an empty place and nothing
  else (`World.lost`).  A command that does not name them does the same with and without them, and
  answers the same but for who else refers to a pool (`Command.overlooks`).

  Commands are followed by their text.  Managers and handles are read and written in their places,
  so what is done in one place is not seen from another one; a new manager or handle gets the same
  number, because an empty place counts.  The log is never looked at.  Only where a pool is given
  back is it counted who refers to it, and that decides nothing but the events of the giving back.
-/
import NameCache.Proofs.Directory.Work
import NameCache.Session.Run

namespace NameCache

open Step

/-- What can be given up: nothing, a manager, or a handle on a pool. -/
inductive Lost where
  | nothing
  | manager (m : Nat)
  | handle (h : Nat)
  deriving DecidableEq, Repr

namespace Lost

variable {all : Array (Option Manager)} {handles : Array Handle} {m h : Nat} {x : Lost}

/-- The managers that are left. -/
def leaveManagers : Lost → Array (Option Manager) → Array (Option Manager)
  | .manager m, all => all.setIfInBounds m none
  | _, all => all

/-- The handles that are left. -/
def leaveHandles : Lost → Array Handle → Array Handle
  | .handle h, all => all.modify h fun handle => { handle with held := false }
  | _, all => all

@[simp] theorem size_leaveManagers (x : Lost) (all : Array (Option Manager)) :
    (x.leaveManagers all).size = all.size := by
  cases x with
  | manager m => exact Array.size_setIfInBounds
  | _ => rfl

@[simp] theorem size_leaveHandles (x : Lost) (all : Array Handle) :
    (x.leaveHandles all).size = all.size := by
  cases x with
  | handle h => exact Array.size_modify
  | _ => rfl

theorem getElem?_leaveManagers (ne : x ≠ .manager m) : (x.leaveManagers all)[m]? = all[m]? := by
  cases x with
  | manager m' =>
    rw [leaveManagers, Array.getElem?_setIfInBounds_ne]
    exact fun same => ne (congrArg Lost.manager same)
  | _ => rfl

theorem getElem?_leaveHandles (ne : x ≠ .handle h) : (x.leaveHandles handles)[h]? = handles[h]? := by
  cases x with
  | handle h' =>
    rw [leaveHandles, Array.getElem?_modify, if_neg]
    exact fun same => ne (congrArg Lost.handle same)
  | _ => rfl

/-- What is written in another place is written before or after. -/
theorem leaveManagers_set (ne : x ≠ .manager m) (manager : Option Manager) :
    x.leaveManagers (all.setIfInBounds m manager) =
      (x.leaveManagers all).setIfInBounds m manager := by
  cases x with
  | manager m' =>
    exact Array.setIfInBounds_comm _ _ fun same => ne (congrArg Lost.manager same.symm)
  | _ => rfl

theorem leaveManagers_modify (ne : x ≠ .manager m) (f : Option Manager → Option Manager) :
    x.leaveManagers (all.modify m f) = (x.leaveManagers all).modify m f := by
  cases x with
  | manager m' =>
    have other : m' ≠ m := fun same => ne (congrArg Lost.manager same)
    refine Array.ext_getElem? fun i => ?_
    rw [leaveManagers, leaveManagers, Array.getElem?_modify, Array.getElem?_setIfInBounds,
      Array.getElem?_setIfInBounds, Array.getElem?_modify, Array.size_modify]
    by_cases here : m = i
    · rw [if_pos here, if_pos here, if_neg (here ▸ other), if_neg (here ▸ other)]
    · rw [if_neg here, if_neg here]
  | _ => rfl

/-- Handles are only ever given up, so it does not matter in which order. -/
theorem leaveHandles_modify (x : Lost) (handles : Array Handle) (h : Nat) :
    x.leaveHandles (handles.modify h fun handle => { handle with held := false }) =
      (x.leaveHandles handles).modify h fun handle => { handle with held := false } := by
  cases x with
  | handle h' =>
    refine Array.ext_getElem? fun i => ?_
    simp only [leaveHandles, Array.getElem?_modify]
    split
    · split
      · rfl
      · rfl
    · rfl
  | _ => rfl

end Lost

/-- The world without it. -/
def World.lost (w : World) (x : Lost) : World :=
  { w with managers := x.leaveManagers w.managers, handles := x.leaveHandles w.handles }

/-- It has a place in the world. -/
def Lost.Known (w : World) : Lost → Prop
  | .nothing => True
  | .manager m => m < w.managers.size
  | .handle h => h < w.handles.size

/-- The managers and handles that a command names. -/
def Command.names : Command → List Lost
  | .managerInfo m | .counters m | .describeManager m | .setEnabled m _ | .shutdown m
  | .takePool m | .skip m _ | .destroy _ m => [.manager m]
  | .poolInfo p | .poolAlive p | .describePool p => [.handle p]
  | .giveBack p m => [.handle p, .manager m]
  | .dropHandle p m => .handle p :: m.toList.map .manager
  | .create m p => .manager m :: p.toList.map .handle
  | _ => []

theorem Command.nothing_not_mem_names (c : Command) : .nothing ∉ c.names := by
  cases c <;> simp [names]

/-- Whether a command gives a pool back to a manager. -/
def Command.givesBack : Command → Bool
  | .giveBack _ _ => true
  | .destroy _ _ => true
  | _ => false

/-- What a reply tells, apart from who else refers to a pool. -/
def Command.told : Command → Reply → Reply
  | .takePool _ | .poolOf _ => fun
    | .handle h _ => .handle h none
    | reply => reply
  | .poolAlive _ => fun
    | .flag _ => .done
    | reply => reply
  | _ => id

namespace World

variable {ε α β : Type} {x : Lost} {back : Bool} {m h : Nat}

theorem known_of_size {w w' : World} (known : x.Known w)
    (managers : w.managers.size ≤ w'.managers.size) (handles : w.handles.size ≤ w'.handles.size) :
    x.Known w' := by
  cases x with
  | nothing => trivial
  | manager m => exact Nat.lt_of_lt_of_le known managers
  | handle h => exact Nat.lt_of_lt_of_le known handles

theorem managers_push {w : World} (known : x.Known w) (manager : Option Manager) :
    x.leaveManagers (w.managers.push manager) = (x.leaveManagers w.managers).push manager := by
  cases x with
  | manager m =>
    replace known : m < w.managers.size := known
    refine Array.ext_getElem? fun i => ?_
    rw [Lost.leaveManagers, Lost.leaveManagers, Array.getElem?_setIfInBounds, Array.getElem?_push,
      Array.getElem?_push, Array.getElem?_setIfInBounds, Array.size_push, Array.size_setIfInBounds]
    by_cases there : m = i
    · -- the new place is another one
      rw [if_pos there, if_pos there, if_pos (Nat.lt_succ_of_lt known), if_pos known, if_neg]
      omega
    · rw [if_neg there, if_neg there]
  | _ => rfl

theorem handles_push {w : World} (known : x.Known w) (handle : Handle) :
    x.leaveHandles (w.handles.push handle) = (x.leaveHandles w.handles).push handle := by
  cases x with
  | handle h =>
    replace known : h < w.handles.size := known
    refine Array.ext_getElem? fun i => ?_
    rw [Lost.leaveHandles, Lost.leaveHandles, Array.getElem?_modify, Array.getElem?_push,
      Array.getElem?_push, Array.getElem?_modify, Array.size_modify]
    by_cases there : h = i
    · rw [if_pos there, if_pos there, if_neg, if_neg]
      · omega
      · omega
    · rw [if_neg there, if_neg there]
  | _ => rfl

theorem manager?_lost (ne : x ≠ .manager m) (w : World) : (w.lost x).manager? m = w.manager? m :=
  congrArg Option.join (Lost.getElem?_leaveManagers ne)

theorem handle?_lost (ne : x ≠ .handle h) (w : World) : (w.lost x).handle? h = w.handle? h := by
  have same : (w.lost x).handles[h]? = w.handles[h]? := Lost.getElem?_leaveHandles ne
  rw [handle?, handle?, same]

/-- An operation does the same with and without `x`, and adds the same to the log.  Only if it gives
    a pool back (`back`) does it record events of that, and these may differ. -/
def Overlooks (x : Lost) (back : Bool) (op : EStateM ε World α) : Prop :=
  ∀ (w : World) (log : Log), x.Known w → ∃ (r : Except ε α) (w' : World) (gained gained' : Log),
    x.Known w' ∧ gained.Alike gained' ∧
      (back = false → ∀ event ∈ gained.events, event.ofPool = false) ∧
      op w = result r { w' with log := gained.onto w.log } ∧
      op { w.lost x with log } = result r { w'.lost x with log := gained'.onto log }

namespace Overlooks

theorem silent : ∀ event ∈ ({} : Log).events, event.ofPool = false :=
  fun _ h => absurd h List.not_mem_nil

protected theorem pure (a : α) : Overlooks x back (pure a : EStateM ε World α) :=
  fun w _ known => ⟨.ok a, w, {}, {}, known, .refl _, fun _ => silent, rfl, rfl⟩

protected theorem throw (fault : ε) : Overlooks x back (throw fault : EStateM ε World α) :=
  fun w _ known => ⟨.error fault, w, {}, {}, known, .refl _, fun _ => silent, rfl, rfl⟩

protected theorem bind {op : EStateM ε World α} {f : α → EStateM ε World β}
    (first : Overlooks x back op) (rest : ∀ a, Overlooks x back (f a)) :
    Overlooks x back (op >>= f) := by
  intro w log known
  obtain ⟨r, w₁, gained, gained', known₁, alike, quiet, run, run'⟩ := first w log known
  cases r with
  | error fault =>
    exact ⟨.error fault, w₁, gained, gained', known₁, alike, quiet, bind_of_error run,
      bind_of_error run'⟩
  | ok a =>
    have known₂ : x.Known { w₁ with log := gained.onto w.log } :=
      known_of_size known₁ (Nat.le_refl _) (Nat.le_refl _)
    obtain ⟨r, w₂, more, more', known', alike', quiet', next, next'⟩ :=
      rest a _ (gained'.onto log) known₂
    refine ⟨r, w₂, more.onto gained, more'.onto gained', known', alike'.onto alike,
      fun none event h => ?_, ?_, ?_⟩
    · rcases List.mem_append.mp h with h | h
      · exact quiet' none event h
      · exact quiet none event h
    · rw [bind_of_ok run, next, Log.onto_onto]
    · refine (bind_of_ok run').trans ?_
      rw [← Log.onto_onto]
      exact next'

/-- A look at the state that `x` has no part in. -/
protected theorem get {f : World → EStateM ε World α}
    (same : ∀ w log, f { w.lost x with log } = f w) (rest : ∀ w, Overlooks x back (f w)) :
    Overlooks x back (get >>= f) := by
  intro w log known
  obtain ⟨r, w', gained, gained', known', alike, quiet, run, run'⟩ := rest w w log known
  refine ⟨r, w', gained, gained', known', alike, quiet, run, ?_⟩
  show f { w.lost x with log } { w.lost x with log } = _
  rw [same, run']

/-- A change that `x` has no part in. -/
protected theorem modify {change : World → World} (gained : Log)
    (quiet : ∀ event ∈ gained.events, event.ofPool = false)
    (managers : ∀ w, w.managers.size ≤ (change w).managers.size)
    (handles : ∀ w, w.handles.size ≤ (change w).handles.size)
    (recorded : ∀ w, (change w).log = gained.onto w.log)
    (same : ∀ w log, x.Known w →
      change { w.lost x with log } = { (change w).lost x with log := gained.onto log }) :
    Overlooks x back (modify change : EStateM ε World PUnit) := by
  intro w log known
  refine ⟨.ok (), change w, gained, gained, known_of_size known (managers w) (handles w), .refl _,
    fun _ => quiet, ?_, ?_⟩
  · rw [← recorded]
    rfl
  · exact congrArg (EStateM.Result.ok ()) (same w log known)

/-- What is read from an answer afterwards. -/
protected theorem map {op : EStateM ε World α} (f : α → β) (overlooks : Overlooks x back op) :
    Overlooks x back (f <$> op) :=
  overlooks.bind fun a => .pure (f a)

theorem emit {event : Event} (quiet : event.ofPool = false) :
    Overlooks x back (World.emit event) :=
  .modify { events := [event] } (by simpa using quiet) (fun _ => Nat.le_refl _)
    (fun _ => Nat.le_refl _) (fun _ => rfl) fun _ _ _ => rfl

theorem require (result : Except Fault α) : Overlooks x back (Step.require result) := by
  cases result with
  | ok a => exact .pure a
  | error fault => exact .throw fault

theorem need (what : Missing) {find : World → Option α}
    (same : ∀ w log, find { w.lost x with log } = find w) :
    Overlooks x back (Running.need what find) := by
  refine .get (fun w log => by rw [same]) fun w => ?_
  split
  · exact .pure _
  · exact .throw _

theorem perform {op : Step World α} (overlooks : Overlooks x back op) :
    Overlooks x back (Running.perform op) := by
  intro w log known
  obtain ⟨r, w', gained, gained', known', alike, quiet, run, run'⟩ := overlooks w log known
  cases r with
  | ok a =>
    refine ⟨.ok a, w', gained, gained', known', alike, quiet, ?_, ?_⟩
    · rw [Running.perform, run]
      rfl
    · rw [Running.perform, run']
      rfl
  | error fault =>
    refine ⟨.error (.fault fault), w', gained, gained', known', alike, quiet, ?_, ?_⟩
    · rw [Running.perform, run]
      rfl
    · rw [Running.perform, run']
      rfl

/-- Work on a directory that is put back in a way that `x` has no part in. -/
theorem work {op : Step Opened α} (work : Opened.Work op) (dir : Directory)
    (directories : World → Opened → Array (Option Directory))
    (same : ∀ w s log log', directories { w.lost x with log } { s with log := log' } =
      directories w s) (here : ∀ w s log, directories w { s with log } = directories w s) :
    Overlooks x back (Step.focus (·.opened dir)
      (fun w s => { w.closed s with directories := directories w s }) op) := by
  intro w log known
  obtain ⟨r, s, gained, quiet, run⟩ := work.blind (w.opened dir)
  refine ⟨r, { w.closed s with directories := directories w s }, gained, gained,
    known_of_size known (Nat.le_refl _) (Nat.le_refl _), .refl _, fun _ => quiet, ?_, ?_⟩
  · have whole : op (w.opened dir) = result r { s with log := gained.onto w.log } := run w.log
    rw [Step.focus, whole]
    cases r with
    | ok a => exact congrArg (EStateM.Result.ok a) (by rw [here]; rfl)
    | error fault => exact congrArg (EStateM.Result.error fault) (by rw [here]; rfl)
  · have left : op (World.opened { w.lost x with log } dir) =
        result r { s with log := gained.onto log } := run log
    rw [Step.focus, left]
    cases r with
    | ok a => exact congrArg (EStateM.Result.ok a) (by rw [same]; rfl)
    | error fault => exact congrArg (EStateM.Result.error fault) (by rw [same]; rfl)

end Overlooks

/-! ## Pools and handles -/

theorem overlooks_addPool (buckets locks : Nat) : Overlooks x back (addPool buckets locks) :=
  .bind (.require _) fun _ => .get (fun _ _ => rfl) fun _ =>
    .bind (.modify {} Overlooks.silent (fun _ => Nat.le_refl _) (fun _ => Nat.le_refl _)
      (fun _ => rfl) fun _ _ _ => rfl) fun _ => .pure _

theorem overlooks_providePool (provision : Provision) :
    Overlooks x back (providePool provision) := by
  cases provision with
  | shared p => exact .pure p
  | separate buckets locks => exact .bind (.emit rfl) fun _ => overlooks_addPool buckets locks

theorem overlooks_addHandle (p : Nat) : Overlooks x back (addHandle p) := by
  refine .get (fun w log => ?_) fun _ => .bind (.modify {} Overlooks.silent
    (fun _ => Nat.le_refl _) (fun w => ?_) (fun _ => rfl) fun w log known => ?_) fun _ => .pure _
  · -- the next number is the same, because an empty place counts
    simp only [lost, Lost.size_leaveHandles]
  · rw [Array.size_push]
    exact Nat.le_succ _
  · simp only [lost, handles_push known]
    rfl

theorem overlooks_dropHandle (h : Nat) : Overlooks x back (dropHandle h) := by
  refine .modify {} Overlooks.silent (fun _ => Nat.le_refl _)
    (fun _ => Nat.le_of_eq Array.size_modify.symm) (fun _ => rfl) fun w log _ => ?_
  simp only [lost, Lost.leaveHandles_modify]
  rfl

/-- Where a pool is given back it is counted who refers to it, and what comes of that is only
    recorded. -/
theorem takeBack_recorded (provision : Provision) (p : Nat) :
    ∃ r : Except Fault Unit, ∀ w : World, ∃ gained : Log, gained.keys = [] ∧
      gained.events.filter (!·.ofPool) = [] ∧
      takeBack provision p w = result r { w with log := gained.onto w.log } := by
  cases provision with
  | shared shared =>
    by_cases other : shared ≠ p
    · refine ⟨.error .foreignPool, fun w => ⟨{}, rfl, rfl, ?_⟩⟩
      show (if shared ≠ p then throw Fault.foreignPool else pure () : Step World Unit) w = _
      rw [if_pos other]
      rfl
    · refine ⟨.ok (), fun w => ⟨{}, rfl, rfl, ?_⟩⟩
      show (if shared ≠ p then throw Fault.foreignPool else pure () : Step World Unit) w = _
      rw [if_neg other]
      rfl
  | separate buckets locks =>
    refine ⟨.ok (), fun w => ?_⟩
    rw [takeBack, get_bind]
    by_cases gone : w.references p = 0
    · rw [if_pos gone]
      cases (w.pool p).isEmpty with
      | true => exact ⟨{ events := [.freedPool] }, rfl, rfl, rfl⟩
      | false =>
        exact ⟨{ events := [.freedPool, .freeingPoolWithEntries (w.pool p).length] }, rfl, rfl, rfl⟩
    · rw [if_neg gone]
      exact ⟨{ events := [.poolStillReferenced] }, rfl, rfl, rfl⟩

theorem overlooks_takeBack (provision : Provision) (p : Nat) :
    Overlooks x true (takeBack provision p) := by
  intro w log known
  obtain ⟨r, recorded⟩ := takeBack_recorded provision p
  obtain ⟨gained, keys, events, run⟩ := recorded w
  obtain ⟨gained', keys', events', run'⟩ := recorded { w.lost x with log }
  exact ⟨r, w, gained, gained', known, ⟨keys'.trans keys.symm, events'.trans events.symm⟩,
    fun h => absurd h (by decide), run, run'⟩

/-! ## Managers and directories -/

theorem overlooks_setEnabled (ne : x ≠ .manager m) (enabled : Bool) :
    Overlooks x back (setEnabled m enabled) := by
  refine .bind (.modify {} Overlooks.silent (fun _ => Nat.le_of_eq Array.size_modify.symm)
    (fun _ => Nat.le_refl _) (fun _ => rfl) fun w log _ => ?_) fun _ => .emit rfl
  simp only [lost, Lost.leaveManagers_modify ne]
  rfl

theorem overlooks_setManager (ne : x ≠ .manager m) (manager : Option Manager) :
    Overlooks x back (modify fun w : World =>
      { w with managers := w.managers.setIfInBounds m manager } : Step World PUnit) := by
  refine .modify {} Overlooks.silent (fun _ => Nat.le_of_eq Array.size_setIfInBounds.symm)
    (fun _ => Nat.le_refl _) (fun _ => rfl) fun w log _ => ?_
  simp only [lost, Lost.leaveManagers_set ne]
  rfl

theorem overlooks_shutdown (ne : x ≠ .manager m) (manager : Manager) :
    Overlooks x back (shutdown m manager) := by
  refine .get (fun _ _ => rfl) fun w => ?_
  have last : Overlooks x back (do
      emit (.shutdown manager.buckets manager.settings.shared)
      modify fun w => { w with managers := w.managers.setIfInBounds m none } : Step World PUnit) :=
    .bind (.emit rfl) fun _ => overlooks_setManager ne none
  dsimp only
  split
  · exact .bind (.emit rfl) fun _ => last
  · exact last

theorem overlooks_newDirectory (ne : x ≠ .manager m) (manager : Manager) (p : Nat) :
    Overlooks x back (newDirectory m manager p) :=
  .bind (overlooks_setManager ne _) fun _ => .bind (.emit rfl) fun _ => .pure _

theorem overlooks_addDirectory (dir : Directory) : Overlooks x back (addDirectory dir) :=
  .get (fun _ _ => rfl) fun _ => .bind (.modify {} Overlooks.silent (fun _ => Nat.le_refl _)
    (fun _ => Nat.le_refl _) (fun _ => rfl) fun _ _ _ => rfl) fun _ => .pure _

theorem overlooks_finish (dir : Directory) : Overlooks x back (finish dir) :=
  .work (Opened.work_leave dir.id) dir (fun w _ => w.directories) (fun _ _ _ _ => rfl)
    fun _ _ _ => rfl

theorem overlooks_dropDirectory (d : Nat) (dir : Directory) :
    Overlooks x back (dropDirectory d dir) :=
  .bind (.modify {} Overlooks.silent (fun _ => Nat.le_refl _) (fun _ => Nat.le_refl _)
    (fun _ => rfl) fun _ _ _ => rfl) fun _ => overlooks_finish dir

theorem overlooks_onDirectory {op : Step Opened α} (work : Opened.Work op) (d : Nat)
    (dir : Directory) : Overlooks x back (onDirectory d dir op) :=
  .work work dir (fun w s => w.directories.setIfInBounds d (some s.dir)) (fun _ _ _ _ => rfl)
    fun _ _ _ => rfl

theorem overlooks_passDirectories (ne : x ≠ .manager m) (p n : Nat) :
    Overlooks x back (passDirectories m p n) := by
  induction n with
  | zero => exact .pure _
  | succ n ih =>
    refine .get (fun w log => ?_) fun w => ?_
    · have same : manager? { w.lost x with log } m = w.manager? m := manager?_lost ne w
      rw [same]
    · split
      · exact .pure _
      · exact .bind (overlooks_newDirectory ne _ _) fun dir =>
          .bind (overlooks_finish dir) fun _ => ih

theorem overlooks_addManagerOf (settings : Settings) (buckets locks : Nat) :
    Overlooks x back (addManagerOf settings buckets locks) := by
  have provides : Overlooks x back (makeProvision settings.shared buckets locks) := by
    unfold makeProvision
    split
    · exact .bind (overlooks_addPool _ _) fun _ => .pure _
    · exact .pure _
  refine .bind provides fun provision => .get (fun w log => ?_) fun _ =>
    .bind (.modify {} Overlooks.silent (fun w => ?_) (fun _ => Nat.le_refl _) (fun _ => rfl)
      fun w log known => ?_) fun _ => .pure _
  · simp only [lost, Lost.size_leaveManagers]
  · rw [Array.size_push]
    exact Nat.le_succ _
  · simp only [lost, managers_push known]
    rfl

theorem overlooks_addManager (threads : Nat) (settings : Settings) :
    Overlooks x back (addManager threads settings) :=
  .bind (.require _) fun locks => .bind (.emit rfl) fun _ =>
    overlooks_addManagerOf settings _ locks

end World

open World

namespace Command

variable {x : Lost} {back : Bool} {c : Command} {m h p : Nat}

theorem overlooks_manager (ne : x ≠ .manager m) : Overlooks x back (Running.manager m) :=
  .need _ fun w _ => manager?_lost ne w

theorem overlooks_checkManager {m : Option Nat} (other : ∀ m' ∈ m, x ≠ .manager m') :
    Overlooks x back (Running.checkManager m) := by
  cases m with
  | none => exact .pure ()
  | some m => exact .bind (overlooks_manager (other m rfl)) fun _ => .pure ()

theorem overlooks_directory (d : Nat) : Overlooks x back (Running.directory d) :=
  .need _ fun _ _ => rfl

theorem overlooks_pool (ne : x ≠ .handle h) : Overlooks x back (Running.pool h) :=
  .need _ fun w _ => handle?_lost ne w

theorem overlooks_entry (e : Nat) : Overlooks x back (Running.entry e) :=
  .need _ fun _ _ => rfl

/-- A question about something that a number names. -/
theorem overlooks_ask {α : Type} {find : Running α} {reply : World → α → Reply}
    (found : Overlooks x back find) (same : ∀ w log a, reply { w.lost x with log } a = reply w a) :
    Overlooks x back (do
      let a ← find
      return reply (← get) a) :=
  found.bind fun _ => .get (fun _ _ => by simp only [same]) fun _ => .pure _

/-- Who else holds a handle on the pool is told, and nothing else depends on it. -/
theorem overlooks_takeHandle (p d : Nat) :
    Overlooks x back ((poolOf d).told <$> Running.takeHandle p) := by
  have told : (poolOf d).told <$> Running.takeHandle p = (do
      let h ← Running.perform (addHandle p)
      return .handle h none) := rfl
  rw [told]
  exact .bind (.perform (overlooks_addHandle p)) fun _ => .pure _

theorem work_confirmFound (encname : Bytes) : Opened.Work (confirmFound encname) := by
  refine .bind (Opened.work_lookupEncname encname) fun found => ?_
  cases found with
  | none => exact .pure _
  | some e => exact .bind (Opened.work_update _ e) fun _ => .pure _

theorem overlooks_act (d : Nat) (action : Action) : Overlooks x back (act d action) := by
  have work : ∀ dir, Overlooks x back (do
      let outcome ← Running.perform (onDirectory d dir (action.run .swap))
      return outcomeReply (← get) action outcome : Running Reply) := fun dir =>
    .bind (.perform (overlooks_onDirectory (action.work .swap) d dir)) fun outcome =>
      .get (fun _ _ => rfl) fun _ => .pure _
  refine .bind (overlooks_directory d) fun dir => ?_
  cases action with
  | update e => exact .bind (overlooks_entry e) fun _ => work dir
  | _ => exact work dir

theorem overlooks_create (ne : x ≠ .manager m) {p : Option Nat} (other : ∀ h ∈ p, x ≠ .handle h) :
    Overlooks x back (run (.create m p)) := by
  have make : ∀ owner p, Overlooks x back (do
      let dir ← Running.perform (newDirectory m owner p)
      let d ← Running.perform (addDirectory dir)
      return .created d dir.id : Running Reply) := fun owner p =>
    .bind (.perform (overlooks_newDirectory ne owner p)) fun dir =>
      .bind (.perform (overlooks_addDirectory dir)) fun _ => .pure _
  refine .bind (overlooks_manager ne) fun owner => ?_
  cases p with
  | none => exact .bind (.perform (overlooks_providePool _)) fun p => make owner p
  | some h => exact .bind (overlooks_pool (other h rfl)) fun p => make owner p

theorem overlooks_takePool (ne : x ≠ .manager m) :
    Overlooks x back ((takePool m).told <$> run (.takePool m)) := by
  rw [run, map_bind]
  refine .bind (overlooks_manager ne) fun manager => ?_
  rw [map_bind]
  exact .bind (.perform (overlooks_providePool _)) fun p => overlooks_takeHandle p 0

theorem overlooks_poolOf (d : Nat) :
    Overlooks x back ((poolOf d).told <$> run (.poolOf d)) := by
  rw [run, map_bind]
  exact .bind (overlooks_directory d) fun dir => overlooks_takeHandle dir.pool d

theorem overlooks_poolAlive (ne : x ≠ .handle p) :
    Overlooks x back ((poolAlive p).told <$> run (.poolAlive p)) := by
  rw [run, map_bind]
  refine .bind (.need _ fun w _ => Lost.getElem?_leaveHandles ne) fun handle => ?_
  exact .get (fun _ _ => rfl) fun _ => .pure _

theorem overlooks_acquireKey (e : Nat) : Overlooks x back (run (.acquireKey e)) := by
  refine .bind (overlooks_entry e) fun entry => ?_
  split
  · exact .pure _
  · rename_i label _
    exact .get (fun _ _ => rfl) fun _ => .bind (.modify { keys := [.acquired label] }
      Overlooks.silent (fun _ => Nat.le_refl _) (fun _ => Nat.le_refl _) (fun _ => rfl)
      fun _ _ _ => rfl) fun _ => .pure _

theorem overlooks_releaseKey (h : Nat) : Overlooks x back (run (.releaseKey h)) :=
  .bind (.need _ fun _ _ => rfl) fun label => .bind (.modify { keys := [.released label] }
    Overlooks.silent (fun _ => Nat.le_refl _) (fun _ => Nat.le_refl _) (fun _ => rfl)
    fun _ _ _ => rfl) fun _ => .pure _

/-- A command that does not name `x` overlooks the loss of it. -/
theorem overlooks (unnamed : x ∉ c.names) : Overlooks x c.givesBack (c.told <$> c.run) := by
  have first : ∀ {y rest}, x ∉ y :: rest → x ≠ y := List.ne_of_not_mem_cons
  have second : ∀ {y z rest}, x ∉ y :: z :: rest → x ≠ z := fun h =>
    List.ne_of_not_mem_cons (List.not_mem_of_not_mem_cons h)
  -- a number that may be missing names nothing if it is
  have optional : ∀ {y : Lost} {n : Option Nat} {bearer : Nat → Lost},
      x ∉ y :: n.toList.map bearer → ∀ i ∈ n, x ≠ bearer i := fun h i member same =>
    List.not_mem_of_not_mem_cons h (same ▸ List.mem_map_of_mem (Option.mem_toList.mpr member))
  cases c with
  | managerInfo m =>
    exact .map _ (overlooks_ask (overlooks_manager (first unnamed)) fun _ _ _ => rfl)
  | counters m =>
    exact .map _ (overlooks_ask (overlooks_manager (first unnamed)) fun _ _ _ => rfl)
  | describeManager m =>
    exact .map _ (overlooks_ask (overlooks_manager (first unnamed)) fun _ _ _ => rfl)
  | setEnabled m enabled =>
    have ne := first unnamed
    exact .map _ (.bind (overlooks_manager ne) fun _ =>
      .bind (.perform (overlooks_setEnabled ne enabled)) fun _ =>
        .bind (overlooks_manager ne) fun _ => .pure _)
  | shutdown m =>
    have ne := first unnamed
    exact .map _ (.bind (overlooks_manager ne) fun manager =>
      .bind (.perform (overlooks_shutdown ne manager)) fun _ => .pure _)
  | takePool m => exact overlooks_takePool (first unnamed)
  | poolOf d => exact overlooks_poolOf d
  | poolInfo p =>
    exact .map _ (overlooks_ask (overlooks_pool (first unnamed)) fun _ _ _ => rfl)
  | poolAlive p => exact overlooks_poolAlive (first unnamed)
  | describePool p =>
    exact .map _ (overlooks_ask (overlooks_pool (first unnamed)) fun _ _ _ => rfl)
  | giveBack p m =>
    exact .map _ (.bind (overlooks_manager (second unnamed)) fun manager =>
      .bind (overlooks_pool (first unnamed)) fun owned =>
        .bind (.perform (overlooks_dropHandle p)) fun _ =>
          .bind (.perform (overlooks_takeBack manager.provision owned)) fun _ => .pure _)
  | dropHandle p m =>
    exact .map _ (.bind (overlooks_checkManager (optional unnamed)) fun _ =>
      .bind (overlooks_pool (first unnamed)) fun _ =>
        .bind (.perform (overlooks_dropHandle p)) fun _ => .pure _)
  | create m p => exact .map _ (overlooks_create (first unnamed) (optional unnamed))
  | skip m n =>
    have ne := first unnamed
    exact .map _ (.bind (overlooks_manager ne) fun manager =>
      .bind (.perform (overlooks_providePool manager.provision)) fun p =>
        .bind (.perform (overlooks_passDirectories ne p n)) fun _ => .pure _)
  | destroy d m =>
    exact .map _ (.bind (overlooks_directory d) fun dir =>
      .bind (overlooks_manager (first unnamed)) fun manager =>
        .bind (.perform (overlooks_dropDirectory d dir)) fun _ =>
          .bind (.perform (overlooks_takeBack manager.provision dir.pool)) fun _ => .pure _)
  | drop d =>
    exact .map _ (.bind (overlooks_directory d) fun dir =>
      .bind (.perform (overlooks_dropDirectory d dir)) fun _ => .pure _)
  | describeDirectory d => exact .map _ (.bind (overlooks_directory d) fun _ => .pure _)
  | directoryInfo d =>
    exact .map _ (overlooks_ask (overlooks_directory d) fun _ _ _ => rfl)
  | within d action => exact .map _ (overlooks_act d action)
  | confirm d encname =>
    exact .map _ (.bind (overlooks_directory d) fun dir =>
      .bind (.perform (overlooks_onDirectory (work_confirmFound encname) d dir)) fun _ =>
        .get (fun _ _ => rfl) fun _ => .pure _)
  | entryInfo e => exact .map _ (.bind (overlooks_entry e) fun _ => .pure _)
  | acquireKey e => exact .map _ (overlooks_acquireKey e)
  | releaseKey h => exact .map _ (overlooks_releaseKey h)

end Command

end NameCache
