/-
  Steps that no directory notices.

  Most commands look, or change managers and handles, or make a pool.  `Quiet w w'` says that the
  entries, the directories, the counters and the key references are the same, that every old pool
  is, and that a new pool is empty.  What a world hosts it hosts after a quiet step too.

  Pools are named by number in three places, by directories, by handles and by managers that share
  one.  `Wired` says that no such number is out of range, so a directory made later finds its pool.
-/
import NameCache.Proofs.World.Hosting

namespace NameCache

/-- What a manager has for good: its settings, its geometry, and how it provides pools. -/
def Manager.terms (manager : Manager) : Settings × Nat × Nat × Provision :=
  (manager.settings, manager.buckets, manager.locks, manager.provision)

namespace World

variable {w w' w'' : World} {present : Family} {d p m h : Nat} {dir : Directory}
  {manager : Manager}

/-- Every pool that something refers to exists. -/
structure Wired (w : World) : Prop where
  tallies : w.managers.size ≤ w.tallies.size
  handle : ∀ h p, w.handle? h = some p → p < w.pools.size
  shared : ∀ m manager p, w.manager? m = some manager → manager.provision = .shared p →
    p < w.pools.size

/-- The managers of `w` have kept their places and their terms in `w'`, unless they are gone. -/
structure Retains (w w' : World) : Prop where
  places : w.managers.size ≤ w'.managers.size
  terms : ∀ m manager', m < w.managers.size → w'.manager? m = some manager' →
    ∃ manager, w.manager? m = some manager ∧ manager'.terms = manager.terms

namespace Retains

theorem of_same (same : w'.managers = w.managers) : w.Retains w' where
  places := Nat.le_of_eq (congrArg Array.size same.symm)
  terms := fun m manager' _ there => by
    rw [manager?, same] at there
    exact ⟨manager', there, rfl⟩

theorem trans (first : w.Retains w') (second : w'.Retains w'') : w.Retains w'' where
  places := Nat.le_trans first.places second.places
  terms := fun m manager'' hm there => by
    obtain ⟨manager', there', same'⟩ :=
      second.terms m manager'' (Nat.lt_of_lt_of_le hm first.places) there
    obtain ⟨manager, here, same⟩ := first.terms m manager' hm there'
    exact ⟨manager, here, same'.trans same⟩

end Retains

/-- No directory notices, and managers keep their terms. -/
structure Quiet (w w' : World) : Prop where
  entries : w'.entries = w.entries
  directories : w'.directories = w.directories
  tallies_le : w.tallies.size ≤ w'.tallies.size
  tally : ∀ m, w'.tally m = w.tally m
  pools_le : w.pools.size ≤ w'.pools.size
  pool : ∀ p, p < w.pools.size → w'.pool p = w.pool p
  fresh : ∀ p, w.pools.size ≤ p → p < w'.pools.size → (w'.pool p).Sound w'.entries []
  held : w'.held = w.held
  keys : w'.log.keys = w.log.keys
  wired : w.Wired → w'.Wired
  retains : w.Retains w'

/-- Every directory is where it was. -/
theorem Quiet.directory? (quiet : w.Quiet w') : w'.directory? = w.directory? := by
  funext d
  rw [World.directory?, World.directory?, quiet.directories]

/-- Whatever a world hosts, it hosts after a quiet step. -/
theorem Hosts.quiet (hosts : w.Hosts present) (quiet : w.Quiet w') : w'.Hosts present where
  standing := fun d dir here => quiet.entries ▸ hosts.standing d dir here
  ledger := fun d dir here => sound_ledger_congr (hosts.ledger d dir here)
    (Nat.le_of_eq (congrArg Array.size quiet.entries.symm)) fun e _ => by rw [quiet.entries]
  disjoint := hosts.disjoint
  pools := fun p hp => by
    by_cases old : p < w.pools.size
    · rw [quiet.pool p old, quiet.entries]
      exact hosts.pools p old
    · -- no directory is on a pool that was not there before
      refine ⟨[], quiet.fresh p (Nat.not_lt.mp old) hp, .nil, fun e => ?_⟩
      refine ⟨fun h => absurd h List.not_mem_nil, ?_⟩
      rintro ⟨d, dir, here, rfl, -⟩
      exact absurd (hosts.pool_lt d dir here) old
  fate := fun e he => by
    rw [quiet.entries] at he ⊢
    exact hosts.fate e he
  pool_lt := fun d dir here => Nat.lt_of_lt_of_le (hosts.pool_lt d dir here) quiet.pools_le
  manager_lt := fun d dir here => Nat.lt_of_lt_of_le (hosts.manager_lt d dir here) quiet.tallies_le

/-! ## Directories that come and go -/

/-- A directory as it is made. -/
def Blank (dir : Directory) : Prop :=
  dir.generation = 0 ∧ dir.updating = false ∧ dir.lists = .empty 2

theorem Blank.activeEntries (blank : Blank dir) : dir.activeEntries = [] := by
  rw [Directory.activeEntries, SlotLists.values, blank.2.2, SlotLists.chain_empty]
  rfl

theorem Blank.staleEntries (blank : Blank dir) : dir.staleEntries = [] := by
  rw [Directory.staleEntries, SlotLists.values, blank.2.2, SlotLists.chain_empty]
  rfl

/-- A directory as it is made holds nothing. -/
theorem Blank.not_holds (blank : Blank dir) (e : Nat) : ¬ dir.Holds e := by
  rw [Directory.Holds, blank.activeEntries, blank.staleEntries]
  simp

/-- Its ledger is in order, whatever world it is in. -/
theorem Blank.ledger (blank : Blank dir) (w : World) : (w.opened dir).ledger.Sound := by
  have active : (w.opened dir).ledger.active = [] := blank.activeEntries
  have stale : (w.opened dir).ledger.stale = [] := blank.staleEntries
  refine .of_expired ⟨?_, ?_, ?_, fun e he => absurd he (blank.not_holds e)⟩
    active blank.1 blank.2.1
  · rw [active]
    exact List.nodup_nil
  · rw [stale]
    exact List.nodup_nil
  · rw [active]
    exact fun e he => absurd he List.not_mem_nil

/-- A new directory is hosted beside the others. -/
theorem Hosts.join (hosts : w.Hosts present) (free : present d = none) (blank : Blank dir)
    (pool_lt : dir.pool < w.pools.size) (manager_lt : dir.manager < w.tallies.size) :
    w.Hosts (present.set d (some dir)) := by
  have cases : ∀ d' dir', present.set d (some dir) d' = some dir' →
      dir' = dir ∨ present d' = some dir' :=
    fun d' dir' there => (Family.set_eq_some there).imp And.right And.right
  have kept : ∀ d' dir', present d' = some dir' → present.set d (some dir) d' = some dir' := by
    intro d' dir' there
    refine (Family.set_ne fun h => ?_).trans there
    rw [h, free] at there
    exact absurd there (by rintro ⟨⟩)
  constructor
  case standing =>
    intro d' dir' there
    rcases cases d' dir' there with rfl | there
    · rw [blank.2.2]
      exact .empty _
    · exact hosts.standing d' dir' there
  case ledger =>
    intro d' dir' there
    rcases cases d' dir' there with rfl | there
    · exact blank.ledger w
    · exact hosts.ledger d' dir' there
  case disjoint =>
    intro d₁ d₂ dir₁ dir₂ e there₁ there₂ held₁ held₂
    rcases cases d₁ dir₁ there₁ with rfl | old₁
    · exact absurd held₁ (blank.not_holds e)
    · rcases cases d₂ dir₂ there₂ with rfl | old₂
      · exact absurd held₂ (blank.not_holds e)
      · exact hosts.disjoint d₁ d₂ dir₁ dir₂ e old₁ old₂ held₁ held₂
  case pools =>
    intro p hp
    obtain ⟨order, linked, sorted, members⟩ := hosts.pools p hp
    refine ⟨order, linked, sorted, fun e => (members e).trans ?_⟩
    constructor
    · rintro ⟨d', dir', there, rest⟩
      exact ⟨d', dir', kept d' dir' there, rest⟩
    · rintro ⟨d', dir', there, on_pool, held⟩
      rcases cases d' dir' there with rfl | there
      · exact absurd held (blank.not_holds e)
      · exact ⟨d', dir', there, on_pool, held⟩
  case fate =>
    intro e he
    exact (hosts.fate e he).imp_left fun ⟨d', dir', there, held⟩ =>
      ⟨d', dir', kept d' dir' there, held⟩
  case pool_lt =>
    intro d' dir' there
    rcases cases d' dir' there with rfl | there
    · exact pool_lt
    · exact hosts.pool_lt d' dir' there
  case manager_lt =>
    intro d' dir' there
    rcases cases d' dir' there with rfl | there
    · exact manager_lt
    · exact hosts.manager_lt d' dir' there

/-- A directory that holds nothing can go. -/
theorem Hosts.leave (hosts : w.Hosts present) (here : present d = some dir)
    (empty : ∀ e, ¬ dir.Holds e) : w.Hosts (present.set d none) := by
  have old : ∀ d' dir', present.set d none d' = some dir' → present d' = some dir' := by
    intro d' dir' there
    by_cases h : d' = d
    · rw [h, Family.set_self] at there
      exact absurd there (by rintro ⟨⟩)
    · rwa [Family.set_ne h] at there
  have kept : ∀ d' dir' e, present d' = some dir' → dir'.Holds e →
      present.set d none d' = some dir' := by
    intro d' dir' e there held
    refine (Family.set_ne fun h => ?_).trans there
    subst h
    obtain rfl := Option.some.inj (there.symm.trans here)
    exact empty e held
  constructor
  case standing => exact fun d' dir' there => hosts.standing d' dir' (old d' dir' there)
  case ledger => exact fun d' dir' there => hosts.ledger d' dir' (old d' dir' there)
  case disjoint =>
    exact fun d₁ d₂ dir₁ dir₂ e there₁ there₂ =>
      hosts.disjoint d₁ d₂ dir₁ dir₂ e (old d₁ dir₁ there₁) (old d₂ dir₂ there₂)
  case pools =>
    intro p hp
    obtain ⟨order, linked, sorted, members⟩ := hosts.pools p hp
    refine ⟨order, linked, sorted, fun e => (members e).trans ?_⟩
    constructor
    · rintro ⟨d', dir', there, on_pool, held⟩
      exact ⟨d', dir', kept d' dir' e there held, on_pool, held⟩
    · rintro ⟨d', dir', there, rest⟩
      exact ⟨d', dir', old d' dir' there, rest⟩
  case fate =>
    intro e he
    exact (hosts.fate e he).imp_left fun ⟨d', dir', there, held⟩ =>
      ⟨d', dir', kept d' dir' e there held, held⟩
  case pool_lt => exact fun d' dir' there => hosts.pool_lt d' dir' (old d' dir' there)
  case manager_lt => exact fun d' dir' there => hosts.manager_lt d' dir' (old d' dir' there)

/-! ## Quiet steps -/

namespace Quiet

theorem refl (w : World) : w.Quiet w where
  entries := rfl
  directories := rfl
  tallies_le := Nat.le_refl _
  tally := fun _ => rfl
  pools_le := Nat.le_refl _
  pool := fun _ _ => rfl
  fresh := fun _ h h' => absurd h' (Nat.not_lt.mpr h)
  held := rfl
  keys := rfl
  wired := fun wired => wired
  retains := .of_same rfl

theorem trans (first : w.Quiet w') (second : w'.Quiet w'') : w.Quiet w'' where
  entries := second.entries.trans first.entries
  directories := second.directories.trans first.directories
  tallies_le := Nat.le_trans first.tallies_le second.tallies_le
  tally := fun m => (second.tally m).trans (first.tally m)
  pools_le := Nat.le_trans first.pools_le second.pools_le
  pool := fun p hp => (second.pool p (Nat.lt_of_lt_of_le hp first.pools_le)).trans
    (first.pool p hp)
  fresh := fun p hp hp' => by
    by_cases old : p < w'.pools.size
    · rw [second.pool p old, second.entries]
      exact first.fresh p hp old
    · exact second.fresh p (Nat.not_lt.mp old) hp'
  held := second.held.trans first.held
  keys := second.keys.trans first.keys
  wired := fun wired => second.wired (first.wired wired)
  retains := first.retains.trans second.retains

/-- Pools, counters, entries, directories and key references are the same. -/
theorem of_same (entries : w'.entries = w.entries) (directories : w'.directories = w.directories)
    (tallies : w'.tallies = w.tallies) (pools : w'.pools = w.pools) (held : w'.held = w.held)
    (keys : w'.log.keys = w.log.keys) (retains : w.Retains w') (wired : w.Wired → w'.Wired) :
    w.Quiet w' where
  entries := entries
  directories := directories
  tallies_le := Nat.le_of_eq (congrArg Array.size tallies.symm)
  tally := fun m => congrArg (fun t : Array Tally => t[m]?.getD {}) tallies
  pools_le := Nat.le_of_eq (congrArg Array.size pools.symm)
  pool := fun p _ => congrArg (fun t : Array Pool => t[p]?.getD noPool) pools
  fresh := fun _ h h' => absurd (pools ▸ h') (Nat.not_lt.mpr h)
  held := held
  keys := keys
  wired := wired
  retains := retains

/-- Events may be recorded. -/
theorem recorded (w : World) {log : Log} (keys : log.keys = w.log.keys) : w.Quiet { w with log } :=
  .of_same rfl rfl rfl rfl rfl keys (.of_same rfl) fun wired =>
    ⟨wired.tallies, wired.handle, wired.shared⟩

/-- Managers may change, or go, as long as they keep their terms. -/
theorem managers {managers : Array (Option Manager)} {log : Log} (keys : log.keys = w.log.keys)
    (size : managers.size = w.managers.size)
    (same : ∀ m manager', (managers[m]?).join = some manager' →
      ∃ manager, w.manager? m = some manager ∧ manager'.terms = manager.terms) :
    w.Quiet { w with managers, log } := by
  refine .of_same rfl rfl rfl rfl rfl keys
    ⟨Nat.le_of_eq size.symm, fun m manager' _ there => same m manager' there⟩ fun wired => ?_
  constructor
  case tallies => exact size ▸ wired.tallies
  case handle => exact wired.handle
  case shared =>
    intro m manager' p there provision
    obtain ⟨manager, here, same⟩ := same m manager' there
    have provides : manager'.provision = manager.provision := congrArg (·.2.2.2) same
    exact wired.shared m manager p here (provides ▸ provision)

/-- A manager is replaced, by none or by one of the same terms. -/
theorem set_manager {x : Option Manager} {log : Log} (keys : log.keys = w.log.keys)
    (hm : w.manager? m = some manager)
    (same : ∀ manager', x = some manager' → manager'.terms = manager.terms) :
    w.Quiet { w with managers := w.managers.setIfInBounds m x, log } := by
  refine managers keys Array.size_setIfInBounds fun m' manager' h => ?_
  rw [Array.getElem?_setIfInBounds] at h
  by_cases heq : m = m'
  · subst heq
    rw [if_pos rfl] at h
    split at h
    · exact ⟨manager, hm, same manager' h⟩
    · exact absurd h (by rintro ⟨⟩)
  · rw [if_neg heq] at h
    exact ⟨manager', h, rfl⟩

/-- A manager is made, and with it its counters. -/
theorem add_manager (exist : ∀ p, manager.provision = .shared p → p < w.pools.size) :
    w.Quiet { w with
      managers := w.managers.push (some manager)
      tallies := w.tallies.push {} } where
  entries := rfl
  directories := rfl
  tallies_le := by
    rw [Array.size_push]
    exact Nat.le_succ _
  tally := fun m => by
    -- counters that nobody has read zero, and new ones start there
    rw [World.tally, World.tally, Array.getElem?_push]
    split
    case isTrue new => rw [new, Array.getElem?_eq_none (Nat.le_refl _)]; rfl
    case isFalse => rfl
  pools_le := Nat.le_refl _
  pool := fun _ _ => rfl
  fresh := fun _ h h' => absurd h' (Nat.not_lt.mpr h)
  held := rfl
  keys := rfl
  wired := fun wired =>
    { tallies := by
        rw [Array.size_push, Array.size_push]
        exact Nat.succ_le_succ wired.tallies
      handle := wired.handle
      shared := fun m manager' p hm provision => by
        rw [manager?, Array.getElem?_push] at hm
        split at hm
        · obtain rfl := Option.some.inj hm
          exact exist p provision
        · exact wired.shared m manager' p hm provision }
  retains :=
    { places := by
        rw [Array.size_push]
        exact Nat.le_succ _
      terms := fun m manager' hm there => by
        rw [manager?, Array.getElem?_push, if_neg (Nat.ne_of_lt hm)] at there
        exact ⟨manager', there, rfl⟩ }

/-- A handle is taken on a pool that exists. -/
theorem handle (hp : p < w.pools.size) :
    w.Quiet { w with handles := w.handles.push { pool := p } } :=
  .of_same rfl rfl rfl rfl rfl rfl (.of_same rfl) fun wired =>
    { tallies := wired.tallies
      shared := wired.shared
      handle := fun h p' found => by
        rw [handle?, Array.getElem?_push] at found
        split at found
        · obtain rfl := Option.some.inj found
          exact hp
        · exact wired.handle h p' found }

/-- A handle is given up. -/
theorem drop (w : World) (h : Nat) :
    w.Quiet { w with
      handles := w.handles.modify h fun handle => { handle with held := false } } :=
  .of_same rfl rfl rfl rfl rfl rfl (.of_same rfl) fun wired =>
    { tallies := wired.tallies
      shared := wired.shared
      handle := fun h' p found => by
        refine wired.handle h' p ?_
        rw [handle?, Array.getElem?_modify] at found
        by_cases heq : h = h'
        · rw [if_pos heq] at found
          cases there : w.handles[h']? with
          | none => rw [there] at found; exact absurd found (by rintro ⟨⟩)
          | some x => rw [there] at found; exact absurd found (by rintro ⟨⟩)
        · rw [if_neg heq] at found
          exact found }

/-- A pool is made. -/
theorem add_pool {buckets locks : Nat} {pool : Pool}
    (made : Pool.create buckets locks = .ok pool) :
    w.Quiet { w with pools := w.pools.push pool } where
  entries := rfl
  directories := rfl
  tallies_le := Nat.le_refl _
  tally := fun _ => rfl
  pools_le := by
    rw [Array.size_push]
    exact Nat.le_succ _
  pool := fun p hp => by
    rw [World.pool, Array.getElem?_push, if_neg (Nat.ne_of_lt hp)]
    rfl
  fresh := fun p hp hp' => by
    rw [Array.size_push] at hp'
    have heq : p = w.pools.size := by omega
    rw [World.pool, Array.getElem?_push, if_pos heq]
    exact Pool.sound_create made _
  held := rfl
  keys := rfl
  wired := fun wired =>
    { tallies := wired.tallies
      handle := fun h p found => by
        rw [Array.size_push]
        exact Nat.lt_succ_of_lt (wired.handle h p found)
      shared := fun m manager p hm provision => by
        rw [Array.size_push]
        exact Nat.lt_succ_of_lt (wired.shared m manager p hm provision) }
  retains := .of_same rfl

end Quiet

end World

end NameCache
