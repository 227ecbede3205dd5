/-
  Everything a request can do to the directories.

  `Passage` is the inversion of a request: no directory notices, a key reference is taken or given
  back, a blank directory is made, one of them is worked on, or one of them goes.  It says what was
  done to which directory and what the world is afterwards, in terms of operations on one directory;
  the soundness of the world is then kept by the steps of `Hosts`, and no later proof looks at a
  command again.
-/
import NameCache.Proofs.Session.History
import NameCache.Proofs.Session.Hushed

namespace NameCache

namespace World

open Step

variable {w w' : World} {dir : Directory} {d m p : Nat} {manager : Manager} {s : Opened}

/-- The world is in order. -/
structure Sound (w : World) : Prop where
  hosts : w.Hosts w.directory?
  wired : w.Wired

/-! ## Putting a directory back -/

theorem set_pool (w : World) (p : Nat) : w.pools.setIfInBounds p (w.pool p) = w.pools := by
  refine Array.ext_getElem? fun i => ?_
  rw [Array.getElem?_setIfInBounds]
  by_cases h : p = i
  · subst h
    rw [if_pos rfl]
    split
    case isTrue hp => rw [pool, Array.getElem?_eq_getElem hp, Option.getD_some]
    case isFalse hp => rw [Array.getElem?_eq_none (Nat.not_lt.mp hp)]
  · rw [if_neg h]

theorem set_tally (w : World) (m : Nat) : w.tallies.setIfInBounds m (w.tally m) = w.tallies := by
  refine Array.ext_getElem? fun i => ?_
  rw [Array.getElem?_setIfInBounds]
  by_cases h : m = i
  · subst h
    rw [if_pos rfl]
    split
    case isTrue hm => rw [tally, Array.getElem?_eq_getElem hm, Option.getD_some]
    case isFalse hm => rw [Array.getElem?_eq_none (Nat.not_lt.mp hm)]
  · rw [if_neg h]

/-- The world after directory `d` was worked on. -/
def put (w : World) (d : Nat) (s : Opened) : World :=
  { w.closed s with directories := w.directories.setIfInBounds d (some s.dir) }

/-- The world after directory `d` has gone, having been worked on for the last time. -/
def without (w : World) (d : Nat) (s : Opened) : World :=
  { w.closed s with directories := w.directories.setIfInBounds d none }

/-- Work that is only counted and recorded. -/
theorem put_recorded (here : w.directory? d = some dir) (tally : Tally) (log : Log) :
    w.put d { w.opened dir with tally, log } =
      { w with tallies := w.tallies.setIfInBounds dir.manager tally, log } := by
  have same : w.directories.setIfInBounds d (some dir) = w.directories := by
    rw [directory?, Option.join_eq_some_iff] at here
    refine Array.ext_getElem? fun i => ?_
    rw [Array.getElem?_setIfInBounds]
    by_cases h : d = i
    · subst h
      rw [if_pos rfl, if_pos (Array.getElem?_eq_some_iff.mp here).1, here]
    · rw [if_neg h]
  have pools := w.set_pool dir.pool
  rw [put, closed, opened]
  simp only [same, pools]

/-- A directory put back as it was changes nothing. -/
theorem put_opened (here : w.directory? d = some dir) : w.put d (w.opened dir) = w := by
  refine (w.put_recorded here (w.tally dir.manager) w.log).trans ?_
  rw [w.set_tally]

/-- A directory put back is opened as it was put back. -/
theorem opened_put (s : Opened) (d : Nat) (hp : s.dir.pool < w.pools.size)
    (hm : s.dir.manager < w.tallies.size) : (w.put d s).opened s.dir = s := by
  have pool : (w.put d s).pool s.dir.pool = s.pool :=
    (w.pool_closed s hp s.dir.pool).trans (if_pos rfl)
  have tally : (w.put d s).tally s.dir.manager = s.tally := by
    show ((w.tallies.setIfInBounds s.dir.manager s.tally)[s.dir.manager]?).getD {} = _
    rw [Array.getElem?_setIfInBounds, if_pos rfl, if_pos hm]
    rfl
  rw [opened, pool, tally]
  rfl

/-- Opening a directory and putting everything back changes nothing. -/
theorem closed_opened (w : World) (dir : Directory) : w.closed (w.opened dir) = w := by
  have pools := w.set_pool dir.pool
  have tallies := w.set_tally dir.manager
  rw [closed, opened]
  simp only [pools, tallies]

theorem lt_of_directory? (here : w.directory? d = some dir) : d < w.directories.size := by
  rw [directory?, Option.join_eq_some_iff] at here
  exact (Array.getElem?_eq_some_iff.mp here).1

theorem directory?_setIfInBounds {directories : Array (Option Directory)}
    (hd : d < directories.size)
    (x : Option Directory) (d' : Nat) :
    ((directories.setIfInBounds d x)[d']?).join =
      if d' = d then x else (directories[d']?).join := by
  rw [Array.getElem?_setIfInBounds]
  by_cases h : d = d'
  · subst h
    rw [if_pos rfl, if_pos hd, if_pos rfl]
    rfl
  · rw [if_neg h, if_neg fun heq => h heq.symm]

theorem directory?_put (here : w.directory? d = some dir) :
    (w.put d s).directory? = Family.set w.directory? d (some s.dir) := by
  funext d'
  exact directory?_setIfInBounds (lt_of_directory? here) (some s.dir) d'

theorem directory?_without (here : w.directory? d = some dir) :
    (w.without d s).directory? = Family.set w.directory? d none := by
  funext d'
  exact directory?_setIfInBounds (lt_of_directory? here) none d'

theorem directory?_push (w : World) (dir : Directory) :
    ({ w with directories := w.directories.push (some dir) } : World).directory? =
      Family.set w.directory? w.directories.size (some dir) := by
  funext d'
  rw [directory?, Array.getElem?_push, Family.set]
  by_cases h : d' = w.directories.size
  · rw [if_pos h, if_pos h]
    rfl
  · rw [if_neg h, if_neg h]
    rfl

theorem directory?_size (w : World) : w.directory? w.directories.size = none := by
  rw [directory?, Array.getElem?_eq_none (Nat.le_refl _)]
  rfl

theorem wired_closed (wired : w.Wired) (s : Opened) : (w.closed s).Wired where
  tallies := by
    rw [size_tallies_closed]
    exact wired.tallies
  handle := fun h p found => by
    rw [size_pools_closed]
    exact wired.handle h p found
  shared := fun m manager p hm provision => by
    rw [size_pools_closed]
    exact wired.shared m manager p hm provision

/-- Which directories are in their places has no part in what is hosted. -/
theorem Hosts.replaced {present : Family} (hosts : w.Hosts present)
    (directories : Array (Option Directory)) : ({ w with directories } : World).Hosts present :=
  ⟨hosts.standing, hosts.ledger, hosts.disjoint, hosts.pools, hosts.fate, hosts.pool_lt,
    hosts.manager_lt⟩

namespace Sound

theorem quiet (sound : w.Sound) (quiet : w.Quiet w') : w'.Sound where
  hosts := by
    rw [quiet.directory?]
    exact sound.hosts.quiet quiet
  wired := quiet.wired sound.wired

/-- The references that callers hold, and the log, have no part in what is hosted. -/
theorem custody (sound : w.Sound) (held : Array (Option String)) (log : Log) :
    ({ w with held, log } : World).Sound where
  hosts :=
    { standing := sound.hosts.standing
      ledger := fun d dir here =>
        sound_ledger_congr (sound.hosts.ledger d dir here) (Nat.le_refl _) fun _ _ => rfl
      disjoint := sound.hosts.disjoint
      pools := sound.hosts.pools
      fate := sound.hosts.fate
      pool_lt := sound.hosts.pool_lt
      manager_lt := sound.hosts.manager_lt }
  wired := ⟨sound.wired.tallies, sound.wired.handle, sound.wired.shared⟩

theorem put (sound : w.Sound) (here : w.directory? d = some dir)
    (sound' : s.Sound (Family.HeldBeside w.directory? d dir.pool))
    (leads : (w.opened dir).Leads s) :
    (w.put d s).Sound where
  hosts := by
    rw [directory?_put here]
    exact (sound.hosts.step here sound' leads).replaced _
  wired := by
    have wired := wired_closed sound.wired s
    exact ⟨wired.tallies, wired.handle, wired.shared⟩

/-- A directory that was worked on is there, as it was left. -/
theorem opened_put (sound : w.Sound) (here : w.directory? d = some dir)
    (leads : (w.opened dir).Leads s) :
    (w.put d s).directory? d = some s.dir ∧ (w.put d s).opened s.dir = s := by
  refine ⟨?_, World.opened_put s d ?_ ?_⟩
  · rw [directory?_put here, Family.set_self]
  · rw [leads.number]
    exact sound.hosts.pool_lt d dir here
  · rw [leads.manager]
    exact sound.hosts.manager_lt d dir here

theorem without (sound : w.Sound) (here : w.directory? d = some dir)
    (sound' : s.Sound (Family.HeldBeside w.directory? d dir.pool)) (leads : (w.opened dir).Leads s)
    (empty : ∀ e, ¬ s.dir.Holds e) : (w.without d s).Sound where
  hosts := by
    have gone := (sound.hosts.step here sound' leads).leave Family.set_self empty
    rw [Family.set_set] at gone
    rw [directory?_without here]
    exact gone.replaced _
  wired := by
    have wired := wired_closed sound.wired s
    exact ⟨wired.tallies, wired.handle, wired.shared⟩

theorem push (sound : w.Sound) (blank : Blank dir) (pool_lt : dir.pool < w.pools.size)
    (manager_lt : dir.manager < w.tallies.size) :
    ({ w with directories := w.directories.push (some dir) } : World).Sound where
  hosts := by
    rw [directory?_push]
    exact (sound.hosts.join w.directory?_size blank pool_lt manager_lt).replaced _
  wired := ⟨sound.wired.tallies, sound.wired.handle, sound.wired.shared⟩

end Sound

/-! ## Directories in passing -/

/-- A directory that holds nothing goes without a trace but in the log. -/
theorem finish_run (w : World) (id : UInt64) (m p : Nat) :
    finish { id, manager := m, pool := p } w =
      .ok () { w.closed (w.opened { id, manager := m, pool := p }) with
        log := w.log.emit (.destroyed id 0) } := rfl

theorem hushed_finish (id : UInt64) (m p : Nat) :
    Hushed (finish { id, manager := m, pool := p }) := by
  intro w _
  rw [settled_of_ok (w.finish_run id m p), closed_opened]
  exact .recorded w rfl

theorem hushed_passDirectories (m p n : Nat) : Hushed (passDirectories m p n) := by
  induction n with
  | zero => exact .pure _
  | succ n ih =>
    intro w wired
    rw [passDirectories, settled_bind_of_ok (show (get : Step World World) w = .ok w w from rfl)]
    cases hm : w.manager? m with
    | none => exact .refl w
    | some manager =>
      have made : w.Quiet { w with
          managers := w.managers.setIfInBounds m
            (some { manager with nextId := manager.nextId + 1 })
          log := w.log.emit (.created manager.nextId) } :=
        .set_manager rfl hm fun manager' h => by
          obtain rfl := Option.some.inj h
          rfl
      have passed : Hushed (do
          finish { id := manager.nextId, manager := m, pool := p }
          passDirectories m p n) := .bind (hushed_finish _ m p) fun _ => ih
      exact made.trans (passed _ (made.wired wired))

end World

/-! ## Commands -/

section Commands

open Step

variable {w w' w₁ : World} {dir : Directory} {d d' e m p : Nat} {s : Opened} {c : Command}

/-- Everything a command can do to the directories. -/
inductive Command.Passage (w : World) (c : Command) : World → Prop
  /-- No directory notices. -/
  | quiet {w' : World} (quiet : w.Quiet w') (deeds : ∀ d, c.deeds w d = []) : Passage w c w'
  /-- A caller takes a reference to the key of a live entry. -/
  | taken {e : Nat} {label : String} (command : c = .acquireKey e) (known : e < w.entries.size)
    (key : (w.entries.entry e).key = some label) (deeds : ∀ d, c.deeds w d = []) :
    Passage w c { w with held := w.held.push (some label), log := w.log.acquire label }
  /-- A caller gives a reference back. -/
  | given {h : Nat} {label : String} (command : c = .releaseKey h) (held : w.held? h = some label)
    (deeds : ∀ d, c.deeds w d = []) :
    Passage w c { w with held := w.held.setIfInBounds h none, log := w.log.release label }
  /-- A directory is made. -/
  | made {w₁ : World} {dir : Directory} (quiet : w.Quiet w₁) (blank : World.Blank dir)
    (pool_lt : dir.pool < w₁.pools.size) (manager_lt : dir.manager < w₁.tallies.size)
    (deeds : ∀ d, c.deeds w d = []) :
    Passage w c { w₁ with directories := w₁.directories.push (some dir) }
  /-- A directory is worked on. -/
  | worked {d : Nat} {dir : Directory} {s : Opened} (here : w.directory? d = some dir)
    (chain : Chain (w.opened dir) (c.deeds w d) s) (others : ∀ d', d' ≠ d → c.deeds w d' = []) :
    Passage w c (w.put d s)
  /-- A directory is purged and goes. -/
  | gone {d : Nat} {dir : Directory} {s : Opened} {w' : World} (here : w.directory? d = some dir)
    (sound : s.Sound (Family.HeldBeside w.directory? d dir.pool)) (leads : (w.opened dir).Leads s)
    (empty : ∀ e, ¬ s.dir.Holds e) (purged : s.ledger = (w.opened dir).ledger.purge)
    (quiet : (w.without d s).Quiet w') (drops : c = .drop d ∨ ∃ m, c = .destroy d m)
    (deeds : ∀ d, c.deeds w d = []) : Passage w c w'

theorem need_run {α : Type} (what : Missing) (find : World → Option α) (w : World) :
    Running.need what find w =
      match find w with
      | some a => .ok a w
      | none => .error (.missing what) w := by
  rw [Running.need]
  show (match find w with
    | some a => pure a
    | none => throw (.missing what) : Running α) w = _
  cases find w <;> rfl

/-- Either what a number names is there, or the command is refused at once. -/
theorem settled_need_bind {α β : Type} (what : Missing) (find : World → Option α)
    (f : α → Running β) (w : World) :
    settled (Running.need what find >>= f) w =
      match find w with
      | some a => settled (f a) w
      | none => w := by
  have run := need_run what find w
  cases h : find w with
  | some a =>
    rw [h] at run
    exact settled_bind_of_ok run
  | none =>
    rw [h] at run
    exact settled_bind_of_error run

/-- A manager that is named and not there is the only thing that looking for it can find wrong. -/
theorem checkManager_run (m : Option Nat) (w : World) :
    Running.checkManager m w =
      if m.all fun m => (w.manager? m).isSome then .ok () w else .error (.missing .manager) w := by
  cases m with
  | none => rfl
  | some m =>
    have looked := need_run .manager (·.manager? m) w
    rw [Running.checkManager, Option.all_some]
    cases there : w.manager? m with
    | none =>
      rw [there] at looked
      exact bind_of_error looked
    | some manager =>
      rw [there] at looked
      exact bind_of_ok looked

theorem settled_checkManager_bind {β : Type} (m : Option Nat) (f : Unit → Running β) (w : World) :
    settled (Running.checkManager m >>= f) w =
      if m.all fun m => (w.manager? m).isSome then settled (f ()) w else w := by
  have looked := checkManager_run m w
  split
  · rw [if_pos ‹_›] at looked
    exact settled_bind_of_ok looked
  · rw [if_neg ‹_›] at looked
    exact settled_bind_of_error looked

/-- Taking a handle on a pool that exists. -/
theorem quiet_takeHandle (hp : p < w.pools.size) : w.Quiet (settled (Running.takeHandle p) w) :=
  .handle hp

theorem hushed_checkManager : (m : Option Nat) → Hushed (Running.checkManager m)
  | none => .pure ()
  | some _ => .bind (.need _ _) fun _ => .pure ()

/-- Commands on one manager or one handle, and questions, are hushed. -/
theorem Command.hushed : (c : Command) → (c matches .takePool _ | .poolOf _ | .create .. |
    .destroy .. | .drop _ | .within .. | .confirm .. | .acquireKey _ | .releaseKey _) = false →
      Hushed c.run
  | .managerInfo _, _ => .bind (.need _ _) fun _ => .bind .get fun _ => .pure _
  | .counters _, _ => .bind (.need _ _) fun _ => .bind .get fun _ => .pure _
  | .describeManager _, _ => .bind (.need _ _) fun _ => .bind .get fun _ => .pure _
  | .setEnabled m enabled, _ =>
    .bind (.need _ _) fun _ => .bind (.perform (World.hushed_setEnabled m enabled)) fun _ =>
      .bind (.need _ _) fun _ => .pure _
  | .shutdown m, _ =>
    .bind (.need _ _) fun manager => .bind (.perform (World.hushed_shutdown m manager)) fun _ =>
      .pure _
  | .poolInfo _, _ => .bind (.need _ _) fun _ => .bind .get fun _ => .pure _
  | .poolAlive _, _ => .bind (.need _ _) fun _ => .bind .get fun _ => .pure _
  | .describePool _, _ => .bind (.need _ _) fun _ => .bind .get fun _ => .pure _
  | .giveBack p _, _ =>
    .bind (.need _ _) fun manager => .bind (.need _ _) fun owned =>
      .bind (.perform (World.hushed_dropHandle p)) fun _ =>
        .bind (.perform (World.hushed_takeBack manager.provision owned)) fun _ => .pure _
  | .dropHandle p m, _ =>
    .bind (hushed_checkManager m) fun _ => .bind (.need _ _) fun _ =>
      .bind (.perform (World.hushed_dropHandle p)) fun _ => .pure _
  | .skip m n, _ =>
    .bind (.need _ _) fun manager =>
      .bind (.perform (World.hushed_providePool manager.provision)) fun p =>
        .bind (.perform (World.hushed_passDirectories m p n)) fun _ => .pure _
  | .describeDirectory _, _ => .bind (.need _ _) fun _ => .pure _
  | .directoryInfo _, _ => .bind (.need _ _) fun _ => .bind .get fun _ => .pure _
  | .entryInfo _, _ => .bind (.need _ _) fun _ => .pure _

theorem settled_perform_bind {α β : Type} (op : Step World α) (f : α → Running β) (w : World) :
    settled (Running.perform op >>= f) w =
      match op w with
      | .ok a w' => settled (f a) w'
      | .error _ w' => w' := by
  cases run : op w with
  | ok a w' =>
    have performed : Running.perform op w = .ok a w' := by rw [Running.perform, run]
    exact settled_bind_of_ok performed
  | error fault w' =>
    have performed : Running.perform op w = .error (.fault fault) w' := by
      rw [Running.perform, run]
    exact settled_bind_of_error performed

/-- A pool that a manager provides, and the handle on it. -/
theorem quiet_takePool (wired : w.Wired) (m : Nat) :
    w.Quiet (settled (Command.run (.takePool m)) w) := by
  rw [Command.run, Running.manager, settled_need_bind]
  cases hm : w.manager? m with
  | none => exact .refl w
  | some manager =>
    show w.Quiet (settled (Running.perform (World.providePool manager.provision) >>= _) w)
    have quiet := World.hushed_providePool manager.provision w wired
    rw [settled_perform_bind]
    cases run : World.providePool manager.provision w with
    | ok p w₁ =>
      rw [settled_of_ok run] at quiet
      exact quiet.trans (quiet_takeHandle (World.providePool_spec wired hm run).1)
    | error fault w₁ =>
      rw [settled_of_error run] at quiet
      exact quiet

/-- A handle on the pool of a directory. -/
theorem quiet_poolOf (sound : w.Sound) (d : Nat) :
    w.Quiet (settled (Command.run (.poolOf d)) w) := by
  rw [Command.run, Running.directory, settled_need_bind]
  cases here : w.directory? d with
  | none => exact .refl w
  | some dir => exact quiet_takeHandle (sound.hosts.pool_lt d dir here)

/-- A caller takes a reference to the key of an entry that is live, and of no other. -/
theorem passage_acquireKey (w : World) (e : Nat) :
    Command.Passage w (.acquireKey e) (settled (Command.run (.acquireKey e)) w) := by
  rw [Command.run, Running.entry, settled_need_bind]
  cases there : w.entries[e]? with
  | none => exact .quiet (.refl w) fun _ => rfl
  | some entry =>
    obtain ⟨known, rfl⟩ := Array.getElem?_eq_some_iff.mp there
    have same : w.entries.entry e = w.entries[e] := by rw [Entries.entry, there]; rfl
    dsimp only
    cases key : w.entries[e].key with
    | none => exact .quiet (.refl w) fun _ => rfl
    | some label => exact .taken rfl known (same ▸ key) fun _ => rfl

theorem passage_releaseKey (w : World) (h : Nat) :
    Command.Passage w (.releaseKey h) (settled (Command.run (.releaseKey h)) w) := by
  rw [Command.run, settled_need_bind]
  cases held : w.held? h with
  | none => exact .quiet (.refl w) fun _ => rfl
  | some label => exact .given rfl held fun _ => rfl

/-- Once its pool is settled, a directory is made. -/
theorem passage_make {w₀ : World} {manager : Manager} (wired : w.Wired) (quiet : w₀.Quiet w)
    (hm : w.manager? m = some manager) (hp : p < w.pools.size) (deeds : ∀ d, c.deeds w₀ d = []) :
    Command.Passage w₀ c (settled (do
      let dir ← Running.perform (World.newDirectory m manager p)
      let d ← Running.perform (World.addDirectory dir)
      return .created d dir.id : Running Reply) w) := by
  have counted : w.Quiet { w with
      managers := w.managers.setIfInBounds m (some { manager with nextId := manager.nextId + 1 })
      log := w.log.emit (.created manager.nextId) } :=
    .set_manager rfl hm fun manager' h => by
      obtain rfl := Option.some.inj h
      rfl
  have manager_lt : m < w.tallies.size := by
    rw [World.manager?, Option.join_eq_some_iff] at hm
    exact Nat.lt_of_lt_of_le (Array.getElem?_eq_some_iff.mp hm).1 wired.tallies
  have blank : World.Blank { id := manager.nextId, manager := m, pool := p } := ⟨rfl, rfl, rfl⟩
  exact .made (quiet.trans counted) blank hp manager_lt deeds

theorem passage_create (sound : w.Sound) (m : Nat) (p : Option Nat) :
    Command.Passage w (.create m p) (settled (Command.run (.create m p)) w) := by
  have unheard : w.Quiet w := .refl w
  rw [Command.run, Running.manager, settled_need_bind]
  cases hm : w.manager? m with
  | none => exact .quiet unheard fun _ => rfl
  | some owner =>
    cases p with
    | some h =>
      show Command.Passage w _ (settled (Running.pool h >>= _) w)
      rw [Running.pool, settled_need_bind]
      cases found : w.handle? h with
      | none => exact .quiet unheard fun _ => rfl
      | some p =>
        exact passage_make sound.wired unheard hm (sound.wired.handle h p found) fun _ => rfl
    | none =>
      show Command.Passage w _
        (settled (Running.perform (World.providePool owner.provision) >>= _) w)
      have quiet := World.hushed_providePool owner.provision w sound.wired
      rw [settled_perform_bind]
      cases run : World.providePool owner.provision w with
      | ok p w₁ =>
        rw [settled_of_ok run] at quiet
        obtain ⟨hp, managers⟩ := World.providePool_spec sound.wired hm run
        have hm₁ : w₁.manager? m = some owner := by rw [World.manager?, managers]; exact hm
        exact passage_make (quiet.wired sound.wired) quiet hm₁ hp fun _ => rfl
      | error fault w₁ =>
        rw [settled_of_error run] at quiet
        exact .quiet quiet fun _ => rfl

/-! ## Work on one directory -/

/-- What is done on a directory in its place. -/
theorem onDirectory_settled {α : Type} (w : World) (d : Nat) (dir : Directory)
    (op : Step Opened α) :
    settled (World.onDirectory d dir op) w = w.put d (settled op (w.opened dir)) := by
  rw [settled, settled, World.onDirectory, Step.focus]
  cases op (w.opened dir) <;> rfl

/-- An answer that is made up after the work does not change the world. -/
theorem settled_perform_reply {α : Type} (op : Step World α) (reply : World → α → Reply)
    (w : World) :
    settled (do let a ← Running.perform op; return reply (← get) a : Running Reply) w =
      settled op w := by
  rw [settled_perform_bind, settled]
  cases op w <;> rfl

theorem settled_perform_done (op : Step World Unit) (w : World) :
    settled (do Running.perform op; return .done : Running Reply) w = settled op w :=
  settled_perform_reply op (fun _ _ => .done) w

/-- What the deeds of a command on directory `d` lead to. -/
theorem passage_worked {dir : Directory} (here : w.directory? d = some dir)
    (chain : Chain (w.opened dir) (c.deeds w d) s) (others : ∀ d', d' ≠ d → c.deeds w d' = [])
    (settles : w' = w.put d s) : c.Passage w w' := by
  rw [settles]
  exact .worked here chain others

/-- A command about a directory that does not exist is refused. -/
theorem passage_missing (missing : w.directory? d = none)
    (others : ∀ d', d' ≠ d → c.deeds w d' = []) : c.Passage w w := by
  refine .quiet (.refl w) fun d' => ?_
  by_cases h : d' = d
  · exact c.deeds_eq_nil (h ▸ missing)
  · exact others d' h

/-- An action on a directory that exists is done to it, whether it is accepted or not. -/
theorem settled_within (sound : w.Sound) {dir : Directory} (here : w.directory? d = some dir)
    (action : Action) : settled (Command.run (.within d action)) w =
      w.put d (Deed.after ⟨w.opened dir, action⟩) := by
  have work : settled (do
      let outcome ← Running.perform (World.onDirectory d dir (action.run .swap))
      return Command.outcomeReply (← get) action outcome : Running Reply) w =
        w.put d (Deed.after ⟨w.opened dir, action⟩) := by
    rw [settled_perform_reply, onDirectory_settled, Deed.after]
  rw [Command.run, Command.act, Running.directory, settled_need_bind]
  simp only [here]
  cases action with
  | update e =>
    show settled (Running.entry e >>= _) w = _
    rw [Running.entry, settled_need_bind]
    cases known : w.entries[e]? with
    | some entry => exact work
    | none =>
      -- a number that no entry has is refused, as the directory would have refused it
      have opened := sound.hosts.opened here
      have free : ¬ (w.opened dir).dir.Holds e := fun held =>
        absurd (opened.holds_lt held) (Nat.not_lt.mpr (Array.getElem?_eq_none_iff.mp known))
      obtain ⟨fault, -, refused⟩ := Opened.refused_spec opened .swap (.update e) free
      rw [Deed.after, settled_of_error refused]
      exact (World.put_opened here).symm
  | _ => exact work

theorem passage_within (sound : w.Sound) (d : Nat) (action : Action) :
    Command.Passage w (.within d action) (settled (Command.run (.within d action)) w) := by
  cases here : w.directory? d with
  | none =>
    have refused : settled (Command.run (.within d action)) w = w := by
      rw [Command.run, Command.act, Running.directory, settled_need_bind, here]
    rw [refused]
    exact passage_missing here fun d' h => Command.deeds_within_ne h action
  | some dir =>
    have deeds : Command.deeds w d (.within d action) = [⟨w.opened dir, action⟩] := by
      rw [Command.deeds, if_pos rfl, here]
    have chain : Chain (w.opened dir) (Command.deeds w d (.within d action))
        (Deed.after ⟨w.opened dir, action⟩) := by
      rw [deeds]
      exact .cons action .nil
    exact passage_worked here chain (fun d' h => Command.deeds_within_ne h action)
      (settled_within sound here action)

/-- Confirming what an encrypted name finds is looking it up and then confirming it. -/
theorem chain_confirmFound (encname : Bytes) (s : Opened) :
    Chain s (Deed.confirming s encname) (settled (Command.confirmFound encname) s) := by
  have look := Opened.lookupEncname_run encname s
  have looked : Action.run .swap (.lookupEncname encname) s =
      .ok (.found (s.findEncname encname)) _ := Step.bind_of_ok look
  have outcome : Deed.outcome ⟨s, .lookupEncname encname⟩ =
      some (.found (s.findEncname encname)) := by rw [Deed.outcome, looked]
  have after : Deed.after ⟨s, .lookupEncname encname⟩ = _ := settled_of_ok looked
  have first : Chain s [⟨s, .lookupEncname encname⟩] _ := .cons (.lookupEncname encname) .nil
  rw [Deed.confirming, outcome, Command.confirmFound, settled_bind_of_ok look, ← after]
  cases s.findEncname encname with
  | none => exact first
  | some e =>
    have second : Chain s [⟨_, .update e⟩, ⟨s, .lookupEncname encname⟩] _ := .cons (.update e) first
    have same : ∀ s₁ : Opened,
        settled (do Opened.update .swap e; return some e : Step Opened (Option Nat)) s₁ =
          Deed.after ⟨s₁, .update e⟩ := by
      intro s₁
      rw [settled_bind_pure]
      exact (settled_bind_pure _ _ _).symm
    show Chain s _ (settled (do Opened.update .swap e; return some e : Step Opened (Option Nat)) _)
    rw [same]
    exact second

theorem passage_confirm (d : Nat) (encname : Bytes) :
    Command.Passage w (.confirm d encname) (settled (Command.run (.confirm d encname)) w) := by
  rw [Command.run, Running.directory, settled_need_bind]
  cases here : w.directory? d with
  | none => exact passage_missing here fun d' h => Command.deeds_confirm_ne h encname
  | some dir =>
    have deeds : Command.deeds w d (.confirm d encname) =
        Deed.confirming (w.opened dir) encname := by
      rw [Command.deeds, if_pos rfl, here]
    have work : settled (do
        let found ← Running.perform (World.onDirectory d dir (Command.confirmFound encname))
        return .found (found.map (← get).shown) : Running Reply) w =
          w.put d (settled (Command.confirmFound encname) (w.opened dir)) := by
      rw [← onDirectory_settled]
      exact settled_perform_reply _ (fun w (found : Option Nat) => .found (found.map w.shown)) w
    refine passage_worked here ?_ (fun d' h => Command.deeds_confirm_ne h encname) work
    rw [deeds]
    exact chain_confirmFound encname (w.opened dir)

/-! ## Directories that go -/

/-- A directory that is dropped destroys its entries and leaves the world. -/
theorem dropDirectory_settled (sound : w.Sound) {dir : Directory}
    (here : w.directory? d = some dir) :
    ∃ s n, World.dropDirectory d dir w = .ok n (w.without d s) ∧
      s.Sound (Family.HeldBeside w.directory? d dir.pool) ∧ (w.opened dir).Leads s ∧
      (∀ e, ¬ s.dir.Holds e) ∧ s.ledger = (w.opened dir).ledger.purge := by
  have opened := sound.hosts.opened here
  obtain ⟨s, run, sound', leads, ledger⟩ := Opened.purge_spec opened
  refine ⟨{ s with log := s.log.emit (.destroyed dir.id (dir.staleEntries.length +
      dir.activeEntries.length)) }, (), ?_, sound'.recorded _ _, leads.trans (.recorded _ _ _),
    fun e held => ?_, ledger⟩
  · rw [World.dropDirectory, Step.modify_bind, World.finish, World.onLoose]
    exact Step.focus_of_ok (Step.bind_of_ok (s := w.opened dir) run)
  · have gone : s.ledger.Holds e := held
    rw [ledger] at gone
    exact Ledger.not_holds_purge opened.ledger.toTidy gone

theorem Command.settled_drop (w : World) (d : Nat) :
    settled (Command.run (.drop d)) w =
      match w.directory? d with
      | some dir => settled (World.dropDirectory d dir) w
      | none => w := by
  rw [Command.run, Running.directory, settled_need_bind]
  cases w.directory? d with
  | none => rfl
  | some dir => exact settled_perform_done _ w

theorem passage_drop (sound : w.Sound) (d : Nat) :
    Command.Passage w (.drop d) (settled (Command.run (.drop d)) w) := by
  rw [Command.settled_drop]
  cases here : w.directory? d with
  | none => exact .quiet (.refl w) fun _ => rfl
  | some dir =>
    obtain ⟨s, n, run, sound', leads, empty, purged⟩ := dropDirectory_settled sound here
    dsimp only
    rw [settled_of_ok run]
    exact .gone here sound' leads empty purged (.refl _) (.inl rfl) fun _ => rfl

/-- Destroying a directory through a manager is dropping it and then taking its pool back. -/
theorem Command.destroy_cases (w : World) (d m : Nat) :
    ((w.directory? d = none ∨ w.manager? m = none) ∧
      settled (Command.run (.destroy d m)) w = w) ∨
    ∃ dir manager, w.directory? d = some dir ∧ w.manager? m = some manager ∧
      settled (Command.run (.destroy d m)) w = settled (World.dropDirectory d dir >>= fun _ =>
        World.takeBack manager.provision dir.pool) w := by
  rw [Command.run, Running.directory, settled_need_bind]
  cases w.directory? d with
  | none => exact .inl ⟨.inl rfl, rfl⟩
  | some dir =>
    show _ ∧ settled (Running.manager m >>= _) w = w ∨ ∃ dir' manager, _ ∧ _ ∧
      settled (Running.manager m >>= _) w = _
    rw [Running.manager, settled_need_bind]
    cases w.manager? m with
    | none => exact .inl ⟨.inr rfl, rfl⟩
    | some manager =>
      refine .inr ⟨dir, manager, rfl, rfl, ?_⟩
      show settled (Running.perform (World.dropDirectory d dir) >>= _) w = _
      rw [settled_perform_bind]
      cases run : World.dropDirectory d dir w with
      | ok _ w₁ =>
        rw [settled_bind_of_ok run]
        exact settled_perform_done _ w₁
      | error fault w₁ => exact (settled_bind_of_error run).symm

theorem passage_destroy (sound : w.Sound) (d m : Nat) :
    Command.Passage w (.destroy d m) (settled (Command.run (.destroy d m)) w) := by
  rcases Command.destroy_cases w d m with ⟨-, settles⟩ | ⟨dir, manager, here, -, settles⟩
  · rw [settles]
    exact .quiet (.refl w) fun _ => rfl
  · obtain ⟨s, n, run, sound', leads, empty, purged⟩ := dropDirectory_settled sound here
    rw [settles, settled_bind_of_ok run]
    have wired := (sound.without here sound' leads empty).wired
    exact .gone here sound' leads empty purged (World.hushed_takeBack _ _ _ wired)
      (.inr ⟨m, rfl⟩) fun _ => rfl

/-- Every command is a passage. -/
theorem Command.passage (sound : w.Sound) (c : Command) : c.Passage w (settled c.run w) := by
  have hushed : Hushed c.run → (∀ d, c.deeds w d = []) → c.Passage w (settled c.run w) :=
    fun h none => .quiet (h w sound.wired) none
  cases c with
  | takePool m => exact .quiet (quiet_takePool sound.wired m) fun _ => rfl
  | poolOf d => exact .quiet (quiet_poolOf sound d) fun _ => rfl
  | create m p => exact passage_create sound m p
  | destroy d m => exact passage_destroy sound d m
  | drop d => exact passage_drop sound d
  | within d action => exact passage_within sound d action
  | confirm d encname => exact passage_confirm d encname
  | acquireKey e => exact passage_acquireKey w e
  | releaseKey h => exact passage_releaseKey w h
  | _ => exact hushed (Command.hushed _ rfl) fun _ => rfl

/-- A passage keeps the world in order. -/
theorem Command.Passage.sound (sound : w.Sound) (passage : c.Passage w w') : w'.Sound := by
  cases passage with
  | quiet quiet _ => exact sound.quiet quiet
  | taken _ _ _ _ => exact sound.custody _ _
  | given _ _ _ => exact sound.custody _ _
  | made quiet blank pool_lt manager_lt _ => exact (sound.quiet quiet).push blank pool_lt manager_lt
  | worked here chain _ =>
    obtain ⟨sound', leads⟩ := chain.leads (sound.hosts.opened here)
    exact sound.put here sound' leads
  | gone here sound' leads empty _ quiet _ _ =>
    exact (sound.without here sound' leads empty).quiet quiet

end Commands

end NameCache
