/-
  Managers and the geometry of their pools.

  A manager is made from its settings once, and what its settings come to is fit for a table; so
  making it goes through, unless the wish for locks is beyond the rounding of 64 bits
  (`World.addManager_run`).  From then on it keeps its terms for as long as it is there
  (`Command.Passage.retains`), and pools keep their shape, so that every pool that it ever provides
  has the geometry it was made with (`Session.manager_geometry`).
-/
import NameCache.Proofs.Settings.Sizes
import NameCache.Proofs.Session.Frames

namespace NameCache

open Step

variable {past : List Moment} {w w' : World} {m p buckets locks threads : Nat}
  {settings : Settings} {provision : Provision} {c : Command}

/-- Both tables of a pool have these counts of buckets and locks. -/
def Pool.Measures (pool : Pool) (buckets locks : Nat) : Prop :=
  pool.shape = ((.plain, buckets, locks), .encrypted, buckets, locks)

/-- A pool of a fit geometry can be made, and has it. -/
theorem Pool.create_run (fit : Table.Geometry buckets locks) :
    ∃ pool, Pool.create buckets locks = .ok pool ∧ pool.Measures buckets locks := by
  refine ⟨⟨.empty .plain buckets locks, .empty .encrypted buckets locks⟩, ?_, rfl⟩
  rw [Pool.create, Table.create, Table.create, if_pos fit, if_pos fit]
  rfl

/-! ## Managers that provide pools -/

/-- Manager `m` has these terms as long as it is there, and its pools have its geometry. -/
structure World.Provides (w : World) (m : Nat) (settings : Settings) (buckets locks : Nat)
    (provision : Provision) : Prop where
  known : m < w.managers.size
  terms : ∀ manager, w.manager? m = some manager →
    manager.terms = (settings, buckets, locks, provision)
  pools : provision = .separate buckets locks ∨
    ∃ p, provision = .shared p ∧ p < w.pools.size ∧ (w.pool p).Measures buckets locks

namespace World

theorem Provides.kept (provides : w.Provides m settings buckets locks provision)
    (retains : w.Retains w') (grows : w.pools.size ≤ w'.pools.size)
    (shapes : ∀ p, p < w.pools.size → (w'.pool p).shape = (w.pool p).shape) :
    w'.Provides m settings buckets locks provision := by
  constructor
  case known => exact Nat.lt_of_lt_of_le provides.known retains.places
  case terms =>
    intro manager' there
    obtain ⟨manager, here, same⟩ := retains.terms m manager' provides.known there
    exact same.trans (provides.terms manager here)
  case pools =>
    rcases provides.pools with separate | ⟨p, shared, hp, measures⟩
    · exact .inl separate
    · exact .inr ⟨p, shared, Nat.lt_of_lt_of_le hp grows, (shapes p hp).trans measures⟩

theorem Provides.quiet (provides : w.Provides m settings buckets locks provision)
    (quiet : w.Quiet w') : w'.Provides m settings buckets locks provision :=
  provides.kept quiet.retains quiet.pools_le fun p hp => congrArg Pool.shape (quiet.pool p hp)

/-- A pool that was just made is there. -/
theorem measures_push {pool : Pool} (measures : pool.Measures buckets locks) (log : Log) :
    w.pools.size < (w.pools.push pool).size ∧
      (({ w with pools := w.pools.push pool, log } : World).pool w.pools.size).Measures
        buckets locks := by
  constructor
  · rw [Array.size_push]
    exact Nat.lt_succ_self _
  · rw [World.pool, Array.getElem?_push, if_pos rfl]
    exact measures

/-- A pool that such a manager provides has its geometry. -/
theorem Provides.providePool (provides : w.Provides m settings buckets locks provision)
    (fit : Table.Geometry buckets locks) :
    ∃ p w', World.providePool provision w = .ok p w' ∧ p < w'.pools.size ∧
      (w'.pool p).Measures buckets locks := by
  rcases provides.pools with rfl | ⟨p, rfl, hp, measures⟩
  · obtain ⟨pool, made, measures⟩ := Pool.create_run fit
    refine ⟨w.pools.size, { w with
      pools := w.pools.push pool, log := w.log.emit (.allocatingPool buckets locks) }, ?_,
      measures_push measures _⟩
    rw [World.providePool, addPool, made]
    rfl
  · exact ⟨p, w, rfl, hp, measures⟩

/-- A manager of a fit geometry can be made. -/
theorem addManagerOf_run (settings : Settings) (fit : Table.Geometry buckets locks) (w : World) :
    ∃ provision w', addManagerOf settings buckets locks w = .ok w.managers.size w' ∧
      (w'.manager? w.managers.size).isSome ∧
      w'.Provides w.managers.size settings buckets locks provision := by
  have made : ∃ provision w₁, makeProvision settings.shared buckets locks w = .ok provision w₁ ∧
      w₁.managers = w.managers ∧ (provision = .separate buckets locks ∨
        ∃ p, provision = .shared p ∧ p < w₁.pools.size ∧ (w₁.pool p).Measures buckets locks) := by
    cases settings.shared with
    | false => exact ⟨_, w, rfl, rfl, .inl rfl⟩
    | true =>
      obtain ⟨pool, made, measures⟩ := Pool.create_run fit
      refine ⟨.shared w.pools.size, { w with pools := w.pools.push pool }, ?_, rfl, .inr
        ⟨w.pools.size, rfl, measures_push measures w.log⟩⟩
      rw [makeProvision, addPool, made]
      rfl
  obtain ⟨provision, w₁, run, same, pools⟩ := made
  let manager : Manager :=
    { settings, buckets, locks, provision, enabled := settings.enabled }
  have here : ((w₁.managers.push (some manager))[w.managers.size]?).join = some manager := by
    rw [same, Array.getElem?_push, if_pos rfl]
    rfl
  refine ⟨provision, { w₁ with
      managers := w₁.managers.push (some manager), tallies := w₁.tallies.push {} }, ?_, ?_, ?_⟩
  · rw [addManagerOf, Step.bind_of_ok run, ← same]
    rfl
  · exact Option.isSome_iff_exists.mpr ⟨manager, here⟩
  constructor
  case known =>
    show w.managers.size < (w₁.managers.push (some manager)).size
    rw [same, Array.size_push]
    exact Nat.lt_succ_self _
  case terms =>
    intro manager' there
    obtain rfl : manager' = manager := Option.some.inj (there.symm.trans here)
    rfl
  case pools => exact pools

/-- Making a manager goes through if the rounding of its wish for locks does; else nothing is
    made. -/
theorem addManager_run (threads : Nat) (settings : Settings) (w : World) :
    (UInt64.size / 2 < settings.lockWish threads ∧
      addManager threads settings w = .error .sumOverflow w) ∨
    (settings.lockWish threads ≤ UInt64.size / 2 ∧ ∃ locks provision w',
      settings.lockCount threads settings.bucketCount = .ok locks ∧
      addManager threads settings w = .ok w.managers.size w' ∧
      (w'.manager? w.managers.size).isSome ∧
      w'.Provides w.managers.size settings settings.bucketCount locks provision) := by
  rcases Nat.lt_or_ge (UInt64.size / 2) (settings.lockWish threads) with over_half | fits
  · refine .inl ⟨over_half, ?_⟩
    rw [addManager, Settings.lockCount_of_lt over_half]
    rfl
  · have counted := Settings.lockCount_of_le fits settings.bucketCount
    generalize min _ settings.bucketCount = locks at counted
    let event := Event.initialized settings.bucketCount locks settings.shared settings.enabled
    obtain ⟨provision, w', run, there, provides⟩ := addManagerOf_run settings
      (Settings.sized counted).geometry { w with log := w.log.emit event }
    refine .inr ⟨fits, locks, provision, w', counted, ?_, there, provides⟩
    rw [addManager, counted]
    exact run

end World

/-! ## What requests leave of managers -/

/-- Managers keep their places and their terms, whatever is done. -/
theorem Command.Passage.retains (passage : c.Passage w w') : w.Retains w' := by
  cases passage with
  | quiet quiet _ => exact quiet.retains
  | taken _ _ _ _ => exact .of_same rfl
  | given _ _ _ => exact .of_same rfl
  | made quiet _ _ _ _ => exact quiet.retains.trans (.of_same rfl)
  | worked _ _ _ => exact .of_same rfl
  | @gone d _ s _ _ _ _ _ _ quiet _ _ =>
    have out : w.Retains (w.without d s) := .of_same rfl
    exact out.trans quiet.retains

/-- No pool is ever lost. -/
theorem Command.Passage.pools_le (passage : c.Passage w w') :
    w.pools.size ≤ w'.pools.size := by
  cases passage with
  | quiet quiet _ => exact quiet.pools_le
  | taken _ _ _ _ => exact Nat.le_refl _
  | given _ _ _ => exact Nat.le_refl _
  | made quiet _ _ _ _ => exact quiet.pools_le
  | @worked d _ s _ _ _ => exact Nat.le_of_eq World.size_pools_closed.symm
  | @gone d _ s _ _ _ _ _ _ quiet _ _ =>
    exact Nat.le_trans (Nat.le_of_eq World.size_pools_closed.symm) quiet.pools_le

theorem World.Provides.request (provides : w.Provides m settings buckets locks provision)
    (sound : w.Sound) (r : Request) :
    (r.answer w).2.Provides m settings buckets locks provision := by
  rcases Moment.passage ⟨w, r⟩ sound with ⟨-, passage⟩ | ⟨same, -⟩
  · exact provides.kept passage.retains passage.pools_le fun p hp =>
      Moment.shape_after ⟨w, r⟩ sound hp
  · replace same : (r.answer w).2 = w := same
    rw [same]
    exact provides

/-! ## All along a session -/

/-- The worlds that a session can go on to from `w`. -/
inductive World.Onward (w : World) : World → Prop
  | here : Onward w w
  | manager {w₁ w₂ : World} {threads m : Nat} {settings : Settings} (onward : Onward w w₁)
    (made : World.addManager threads settings w₁ = .ok m w₂) : Onward w w₂
  | managerOf {w₁ w₂ : World} {buckets locks m : Nat} {settings : Settings} (onward : Onward w w₁)
    (made : World.addManagerOf settings buckets locks w₁ = .ok m w₂) : Onward w w₂
  | request {w₁ : World} (onward : Onward w w₁) (r : Request) : Onward w (r.answer w₁).2

theorem World.Onward.provides (onward : w.Onward w') (session : Session past w)
    (provides : w.Provides m settings buckets locks provision) :
    w'.Provides m settings buckets locks provision := by
  have both : ∃ past', Session past' w' ∧ w'.Provides m settings buckets locks provision := by
    induction onward with
    | here => exact ⟨past, session, provides⟩
    | manager _ made ih =>
      obtain ⟨past', session', provides'⟩ := ih
      exact ⟨past', session'.manager made,
        provides'.quiet (World.quiet_addManager session'.sound.wired made)⟩
    | managerOf _ made ih =>
      obtain ⟨past', session', provides'⟩ := ih
      exact ⟨past', session'.managerOf made,
        provides'.quiet (World.quiet_addManagerOf session'.sound.wired made)⟩
    | request _ r ih =>
      obtain ⟨past', session', provides'⟩ := ih
      exact ⟨_, session'.request r, provides'.request session'.sound r⟩
  exact both.elim fun _ h => h.2

/-- Settings make a manager, unless their wish for locks is beyond two to the 63rd power, which ends
    the making at once.  Whatever they are, the buckets are a power of two between 1 and two to the
    26th power, and the locks are a power of two between 1 and 256 and no more than the buckets.
    Wherever a session goes on to from there, as long as the manager is there it has this geometry;
    a pool is had from it, and the tables of the pool have the geometry and are fit to have it. -/
theorem Session.manager_geometry (session : Session past w) (threads : Nat) (settings : Settings) :
    (UInt64.size / 2 < settings.lockWish threads ∧
      World.addManager threads settings w = .error .sumOverflow w) ∨
    (settings.lockWish threads ≤ UInt64.size / 2 ∧ ∃ locks w',
      settings.lockCount threads settings.bucketCount = .ok locks ∧
      Settings.Sized settings.bucketCount locks ∧
      World.addManager threads settings w = .ok w.managers.size w' ∧
      (w'.manager? w.managers.size).isSome ∧
      ∀ w₁, w'.Onward w₁ → ∀ manager, w₁.manager? w.managers.size = some manager →
        manager.settings = settings ∧ manager.buckets = settings.bucketCount ∧
        manager.locks = locks ∧
        ∃ p w₂, World.providePool manager.provision w₁ = .ok p w₂ ∧ p < w₂.pools.size ∧
          (w₂.pool p).Measures settings.bucketCount locks ∧
          Table.Geometry settings.bucketCount locks) := by
  rcases World.addManager_run threads settings w with
    ⟨over_half, stops⟩ | ⟨fits, locks, provision, w', counted, run, there, provides⟩
  · exact .inl ⟨over_half, stops⟩
  have sized := Settings.sized counted
  refine .inr ⟨fits, locks, w', counted, sized, run, there, fun w₁ onward manager here => ?_⟩
  have provides' := onward.provides (session.manager run) provides
  obtain ⟨same_settings, rest⟩ := Prod.mk.inj (provides'.terms manager here)
  obtain ⟨same_buckets, rest⟩ := Prod.mk.inj rest
  obtain ⟨same_locks, same_provision⟩ := Prod.mk.inj rest
  obtain ⟨p, w₂, provided, hp, measures⟩ := provides'.providePool sized.geometry
  refine ⟨same_settings, same_buckets, same_locks, p, w₂, ?_, hp, measures, sized.geometry⟩
  rw [same_provision]
  exact provided

/-- A hundred buckets and the most locks that the rounding takes; the manager has provided a pool
    for a directory already. -/
theorem Session.manager_geometry_of_wish :
    ∃ w₁ manager, w₁.manager? 0 = some manager ∧ w₁.directories.size = 1 ∧
      manager.buckets = 128 ∧ manager.locks = 128 ∧
      ∃ p w₂, World.providePool manager.provision w₁ = .ok p w₂ ∧
        (w₂.pool p).Measures 128 128 := by
  rcases Session.manager_geometry .start 8
      { buckets := 100, shared := false, locks := some 9223372036854775808 } with
    ⟨over_half, -⟩ | ⟨-, locks, w', counted, -, run, -, later⟩
  · exact absurd over_half (by decide +kernel)
  rw [Settings.lockCount_of_le (by decide +kernel)] at counted
  obtain rfl : 128 = locks := Eq.trans (by decide +kernel) (Except.ok.inj counted)
  obtain rfl := Step.settled_of_ok run
  have there : (((Request.answer ⟨none, .create 0 none⟩ (settled (World.addManager 8
      { buckets := 100, shared := false, locks := some 9223372036854775808 }) {})).2).manager?
        0).isSome := by
    decide +kernel
  obtain ⟨manager, here⟩ := Option.isSome_iff_exists.mp there
  obtain ⟨-, buckets, same, p, w₂, provided, -, measures, -⟩ :=
    later _ (.request .here _) manager here
  have count : Settings.bucketCount
      { buckets := 100, shared := false, locks := some 9223372036854775808 } = 128 := by
    decide +kernel
  rw [count] at buckets measures
  exact ⟨_, manager, here, by decide +kernel, buckets, same, p, w₂, provided, measures⟩

/-- With one lock more the rounding overflows, although no more than 64 would be kept. -/
theorem Session.manager_geometry_fails :
    ¬ ∀ settings : Settings, ∃ m w', World.addManager 8 settings {} = .ok m w' := by
  intro always
  obtain ⟨m, w', made⟩ := always { buckets := 64, locks := some 9223372036854775809 }
  rw [World.addManager, Settings.lockCount_of_lt (by decide +kernel)] at made
  exact absurd made (by rintro ⟨⟩)

end NameCache
