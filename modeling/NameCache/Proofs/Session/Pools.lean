/-
  How long a pool lives, and what it is like when it goes.

  A pool has no owner.  It exists for as long as a caller holds a handle on it, a directory uses it
  or a manager shares it (`poolAlive_iff`).  What is linked into it is linked there by directories
  that use it, so once nothing refers to a pool neither of its tables has an entry
  (`Sound.unreferenced`).  That is what the tearing down of a separate pool relies on and looks at
  (`takeBack_run`): it never finds an entry.
-/
import NameCache.Proofs.World.Census
import NameCache.Proofs.Session.Frames

namespace NameCache

namespace World

variable {w : World} {d e m p : Nat} {dir : Directory} {kind : NameKind}

/-! ## Who refers to a pool -/

/-- Something refers to a pool: a handle that is held, a directory that uses it, or a manager that
    shares it. -/
def Refers (w : World) (p : Nat) : Prop :=
  (∃ h, w.handle? h = some p) ∨ (∃ d dir, w.directory? d = some dir ∧ dir.pool = p) ∨
    ∃ m manager, w.manager? m = some manager ∧ manager.provision = .shared p

theorem countP_ne_zero {α : Type} {xs : Array α} {q : α → Bool} :
    xs.countP q ≠ 0 ↔ ∃ (i : Nat) (x : α), xs[i]? = some x ∧ q x = true := by
  rw [Nat.ne_zero_iff_zero_lt, Array.countP_pos_iff]
  constructor
  · rintro ⟨x, member, picked⟩
    obtain ⟨i, found⟩ := Array.mem_iff_getElem?.mp member
    exact ⟨i, x, found, picked⟩
  · rintro ⟨i, x, found, picked⟩
    exact ⟨x, Array.mem_iff_getElem?.mpr ⟨i, found⟩, picked⟩

theorem handle?_eq_some {h : Nat} : w.handle? h = some p ↔
    ∃ handle, w.handles[h]? = some handle ∧ handle.held = true ∧ handle.pool = p := by
  rw [handle?, Option.bind_eq_some_iff]
  refine exists_congr fun handle => and_congr_right fun _ => ?_
  cases handle.held <;> simp

theorem directory?_eq_some : w.directory? d = some dir ↔ w.directories[d]? = some (some dir) := by
  rw [directory?, Option.join_eq_some_iff]

theorem manager?_eq_some {manager : Manager} :
    w.manager? m = some manager ↔ w.managers[m]? = some (some manager) := by
  rw [manager?, Option.join_eq_some_iff]

/-- A pool is alive as long as something refers to it. -/
theorem poolAlive_iff : w.poolAlive p = true ↔ w.Refers p := by
  have handles : w.handles.countP (fun h => h.held && h.pool == p) ≠ 0 ↔
      ∃ h, w.handle? h = some p := by
    rw [countP_ne_zero]
    refine exists_congr fun h => ?_
    rw [handle?_eq_some]
    simp
  have directories : w.directories.countP (fun d => d.any (·.pool == p)) ≠ 0 ↔
      ∃ d dir, w.directory? d = some dir ∧ dir.pool = p := by
    rw [countP_ne_zero]
    refine exists_congr fun d => ?_
    constructor
    · rintro ⟨_ | dir, there, picked⟩
      · exact absurd picked Bool.false_ne_true
      · exact ⟨dir, directory?_eq_some.mpr there, beq_iff_eq.mp picked⟩
    · rintro ⟨dir, here, on_pool⟩
      exact ⟨some dir, directory?_eq_some.mp here, beq_iff_eq.mpr on_pool⟩
  have managers : w.managers.countP (fun m => m.any (Manager.shares p)) ≠ 0 ↔
      ∃ m manager, w.manager? m = some manager ∧ manager.provision = .shared p := by
    rw [countP_ne_zero]
    refine exists_congr fun m => ?_
    constructor
    · rintro ⟨_ | manager, there, picked⟩
      · exact absurd picked Bool.false_ne_true
      · exact ⟨manager, manager?_eq_some.mpr there, beq_iff_eq.mp picked⟩
    · rintro ⟨manager, here, shared⟩
      exact ⟨some manager, manager?_eq_some.mp here, beq_iff_eq.mpr shared⟩
  rw [Refers, ← handles, ← directories, ← managers, poolAlive, bne_iff_ne, references]
  omega

theorem references_eq_zero : w.references p = 0 ↔ ¬ w.Refers p := by
  rw [← poolAlive_iff, poolAlive, bne_iff_ne, Decidable.not_not]

/-! ## A pool that nothing refers to -/

/-- Both tables of a pool are empty. -/
structure Vacant (w : World) (p : Nat) : Prop where
  isEmpty : (w.pool p).isEmpty = true
  length : ∀ kind, ((w.pool p).table kind).length = 0
  bucket : ∀ kind hash, ((w.pool p).table kind).bucket hash = []

/-- What no directory uses has no entry. -/
theorem Sound.unused (sound : w.Sound)
    (unused : ∀ d dir, w.directory? d = some dir → dir.pool ≠ p) : w.Vacant p := by
  have none : ∀ e, ¬ Family.HeldOn w.directory? p e := by
    rintro e ⟨d, dir, here, on_pool, -⟩
    exact unused d dir here on_pool
  have nothing : w.holdings (·.pool == p) = [] := by
    refine List.eq_nil_iff_forall_not_mem.mpr fun e he => ?_
    obtain ⟨d, dir, here, picked, -⟩ := mem_holdings.mp he
    exact unused d dir here (beq_iff_eq.mp picked)
  have length : ∀ kind, ((w.pool p).table kind).length = 0 := by
    intro kind
    rw [sound.hosts.length_table, ← sound.hosts.length_holdings, nothing]
    rfl
  constructor
  case isEmpty =>
    have plain : (w.pool p).names.length = 0 := length .plain
    have encrypted : (w.pool p).encnames.length = 0 := length .encrypted
    rw [Pool.isEmpty, Table.isEmpty, Table.isEmpty, plain, encrypted]
    rfl
  case length => exact length
  case bucket =>
    intro kind hash
    refine List.eq_nil_iff_forall_not_mem.mpr fun e he => ?_
    exact none e (((sound.bucket p kind hash).2 e).mp he).1

/-- So a pool that nothing refers to has none. -/
theorem Sound.unreferenced (sound : w.Sound) (gone : w.references p = 0) : w.Vacant p :=
  sound.unused fun d dir here on_pool =>
    references_eq_zero.mp gone (.inr (.inl ⟨d, dir, here, on_pool⟩))

/-! ## Taking a pool back -/

/-- Whether a manager takes pool `p` back: one that shares a pool takes no other. -/
def takes (p : Nat) : Provision → Bool
  | .shared q => q == p
  | .separate _ _ => true

/-- The trace of taking a pool back. -/
def takeBackTrace (w : World) (p : Nat) : Provision → List Event
  | .shared _ => []
  | .separate _ _ => if w.references p = 0 then [.freedPool] else [.poolStillReferenced]

/-- Taking a pool back is only recorded, and a pool that is torn down has no entry. -/
theorem takeBack_run (sound : w.Sound) (provision : Provision) (p : Nat) :
    takeBack provision p w =
      if takes p provision then .ok () { w with log := w.log.emitAll (w.takeBackTrace p provision) }
      else .error .foreignPool w := by
  cases provision with
  | shared q =>
    show (if q ≠ p then throw Fault.foreignPool else pure () : Step World Unit) w = _
    by_cases same : q = p
    · have takes : takes p (.shared q) = true := beq_iff_eq.mpr same
      rw [if_neg (not_not_intro same), if_pos takes]
      rfl
    · have refuses : ¬ takes p (.shared q) = true := fun h => same (beq_iff_eq.mp h)
      rw [if_pos same, if_neg refuses]
      rfl
  | separate buckets locks =>
    have takes : takes p (.separate buckets locks) = true := rfl
    rw [takeBack, Step.get_bind, takeBackTrace, if_pos takes]
    by_cases gone : w.references p = 0
    · rw [if_pos gone, if_pos gone, (sound.unreferenced gone).isEmpty]
      rfl
    · rw [if_neg gone, if_neg gone]
      rfl

/-- Whether it is taken or not, nothing else is left of it than its trace. -/
theorem Sound.takeBack_settled (sound : w.Sound) (provision : Provision) (p : Nat) :
    Step.settled (takeBack provision p) w =
      { w with log := w.log.emitAll (w.takeBackTrace p provision) } := by
  have run := takeBack_run sound provision p
  by_cases taken : takes p provision = true
  · rw [if_pos taken] at run
    exact Step.settled_of_ok run
  · rw [if_neg taken] at run
    cases provision with
    | shared q => exact Step.settled_of_error run
    | separate buckets locks => exact absurd rfl taken

theorem mem_takeBackTrace {provision : Provision} {event : Event}
    (recorded : event ∈ w.takeBackTrace p provision) :
    event = .freedPool ∨ event = .poolStillReferenced := by
  cases provision with
  | shared q => exact absurd recorded List.not_mem_nil
  | separate buckets locks =>
    unfold takeBackTrace at recorded
    dsimp only at recorded
    split at recorded
    · exact .inl (List.mem_singleton.mp recorded)
    · exact .inr (List.mem_singleton.mp recorded)

end World

end NameCache
