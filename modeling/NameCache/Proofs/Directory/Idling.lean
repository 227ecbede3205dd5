/-
  Actions that change nothing.

  Ending or giving up an update when none is under way, beginning one to zero or to the present
  generation, confirming an entry of a clean directory and purging an empty one are asked for all
  the time.  `Opened.Idles` lists them with their answers, and `Idles.run` says that nothing comes
  of them: the lists, the entries, the tables and the counters are not just equal in what they
  show, they are not written to.

  The crux is what the branches of the code cannot see.  That a confirmation does not find the
  directory in doubt needs every active entry to have the directory's generation, and that ending
  an update passes the assertion on the two lists needs one of them to be empty: both are part of
  `Opened.Sound`, which every history keeps.
-/
import NameCache.Proofs.Directory.Effects
import NameCache.Proofs.Directory.Insertions

namespace NameCache

/-! ## The trace of a hold -/

/-- The trace that giving up a hold on directory number `id` leaves. -/
def Hold.trace (id : UInt64) : Hold → List Event
  | .exclusive => []
  | .shared => [.reacquired id]
  | .upgradable => []
  | .contended => [.upgradeFailed id]

/-- The trace that an action leaves of the hold under which it was asked for. -/
def Action.trace (id : UInt64) : Action → List Event
  | .beginUpdate hold _ => hold.trace id
  | _ => []

namespace Opened

variable {s s' : Opened} {others : Nat → Prop} {e : Nat} {action : Action} {outcome : Outcome}

theorem giveUp_run (hold : Hold) (s : Opened) :
    Action.giveUp hold s = .ok () { s with log := s.log.emitAll (hold.trace s.dir.id) } := by
  cases hold <;> rfl

/-! ## One action -/

/-- The actions that find nothing to do, and what they answer. -/
inductive Idles (s : Opened) : Action → Outcome → Prop
  /-- An entry of a clean directory is confirmed. -/
  | confirmed {e : Nat} (held : s.dir.Holds e) (clean : s.dir.status = .clean) :
    Idles s (.update e) .done
  /-- An update is begun to no generation, or to the present one. -/
  | begun (hold : Hold) {g : UInt64} (nowhere : g = 0 ∨ g = s.dir.generation) :
    Idles s (.beginUpdate hold g) (.began s.dir.generation)
  /-- An update that is not under way is finished. -/
  | ended (idle : s.dir.updating = false) : Idles s .endUpdate (.freed 0)
  /-- An update that is not under way is given up. -/
  | aborted (idle : s.dir.updating = false) : Idles s .abortUpdate .done
  /-- A directory without entries is purged. -/
  | purged (empty : ∀ e, ¬ s.dir.Holds e) : Idles s .purge (.freed 0)

/-- Confirming an entry of a clean directory finds it as it should be. -/
theorem update_idle (sound : s.Sound others) (held : s.dir.Holds e) (clean : s.dir.status = .clean)
    (expiry : Expiry) : update expiry e s = .ok () s := by
  obtain ⟨idle, none_stale⟩ := sound.standing.status_clean.mp clean
  have active : e ∈ s.dir.activeEntries := held.resolve_right fun stale => by
    rw [none_stale] at stale
    exact List.not_mem_nil stale
  obtain ⟨n, l, hm, link⟩ := sound.node held
  have own : ¬ (s.entries.entry e).dir ≠ s.dir.id := not_not_intro (sound.holds_own held)
  have node : s.nodeOf e = some n := by
    rw [nodeOf, link, Option.filter_some, sound.standing.sound.value?_of_mem hm]
    simp
  -- nothing is stale, and what is active has the generation of the directory
  have certain : ¬ (s.dir.staleCount ≠ 0 ∨ (s.entries.entry e).generation ≠ s.dir.generation) := by
    rw [sound.standing.staleCount_eq, none_stale, sound.current active]
    simp
  have scanning : ¬ s.dir.updating = true := Bool.eq_false_iff.mp idle
  rw [update, Step.get_bind]
  simp only [if_neg own, node]
  show confirm expiry e (some n) s = _
  rw [confirm, Step.get_bind, entry_bind, if_neg scanning, if_neg certain]
  rfl

/-- Beginning an update to no generation, or to the present one, does nothing. -/
theorem beginUpdate_idle {g : UInt64} (nowhere : g = 0 ∨ g = s.dir.generation) (expiry : Expiry) :
    beginUpdate expiry g s = .ok () s := by
  have declined : ¬ (g ≠ 0 ∧ s.dir.generation ≠ g) := by
    rintro ⟨some_generation, other⟩
    exact nowhere.elim some_generation fun same => other same.symm
  rw [beginUpdate, Step.get_bind, if_neg declined]
  rfl

/-- A list without entries is destroyed at once. -/
theorem freeList_idle (sound : s.Sound others) (side : Side)
    (empty : s.dir.lists.values side.list = []) : freeList side.list 0 s = .ok 0 s := by
  have chain : s.dir.lists.chain side.list = [] := List.map_eq_nil_iff.mp empty
  rw [freeList, Step.bind_of_ok (front_run sound side.list_lt), chain]
  rfl

/-- Purging a directory without entries does nothing. -/
theorem purge_idle (sound : s.Sound others) (empty : ∀ e, ¬ s.dir.Holds e) :
    purge s = .ok 0 s := by
  have none_active : s.dir.activeEntries = [] :=
    List.eq_nil_iff_forall_not_mem.mpr fun e he => empty e (.inl he)
  have none_stale : s.dir.staleEntries = [] :=
    List.eq_nil_iff_forall_not_mem.mpr fun e he => empty e (.inr he)
  rw [purge, Step.get_bind, sound.standing.staleCount_eq, sound.standing.activeCount_eq,
    none_active, none_stale]
  show (freeList s.dir.active.other.list 0 >>= _) s = _
  rw [Step.bind_of_ok (freeList_idle sound s.dir.active.other none_stale)]
  show (freeList s.dir.active.list 0 >>= _) s = _
  rw [Step.bind_of_ok (freeList_idle sound s.dir.active none_active)]
  rfl

/-- An action that finds nothing to do is accepted and changes nothing; only the giving up of a
    hold is recorded. -/
theorem Idles.run (idles : s.Idles action outcome) (sound : s.Sound others) (expiry : Expiry) :
    action.run expiry s =
      .ok outcome { s with log := s.log.emitAll (action.trace s.dir.id) } := by
  cases idles with
  | confirmed held clean => exact Step.bind_of_ok (update_idle sound held clean expiry)
  | begun hold nowhere =>
    let s₀ : Opened := { s with log := s.log.emitAll (hold.trace s.dir.id) }
    refine (Step.bind_of_ok (giveUp_run hold s)).trans ?_
    exact Step.bind_of_ok (beginUpdate_idle (s := s₀) nowhere expiry)
  | ended idle =>
    refine Step.bind_of_ok (a := 0) (t := s) ?_
    rw [endUpdate, Step.get_bind, if_neg (Bool.eq_false_iff.mp idle)]
    exact Step.bind_of_ok (requireOneList_run sound idle)
  | aborted idle =>
    refine Step.bind_of_ok (a := ()) (t := s) ?_
    rw [abortUpdate, Step.get_bind, if_neg (Bool.eq_false_iff.mp idle)]
    exact requireOneList_run sound idle
  | purged empty => exact Step.bind_of_ok (purge_idle sound empty)

end Opened

/-! ## The same action twice -/

/-- The actions after which the same one finds nothing to do. -/
def Action.settling : Action → Bool
  | .beginUpdate .. | .endUpdate | .abortUpdate | .purge => true
  | .insert .. | .update _ | .lookupName _ | .lookupEncname _ => false

/-- They are always accepted. -/
theorem Ledger.accepts_settling (l : Ledger) {action : Action} (settling : action.settling = true) :
    l.Accepts action := by
  cases action with
  | insert label name encname => exact absurd settling Bool.false_ne_true
  | update e => exact absurd settling Bool.false_ne_true
  | lookupName name => exact absurd settling Bool.false_ne_true
  | lookupEncname encname => exact absurd settling Bool.false_ne_true
  | _ => trivial

/-- Once such an action was done, doing it again finds nothing to do. -/
theorem Deed.settles (deed : Deed) {others : Nat → Prop} (sound : deed.before.Sound others)
    (settling : deed.action.settling = true) :
    ∃ outcome, deed.after.Idles deed.action outcome := by
  obtain ⟨before, action⟩ := deed
  rcases Deed.cases ⟨before, action⟩ sound with ⟨refuses, -⟩ | ⟨-, outcome, -, -, ledger, -⟩
  · exact absurd (Ledger.accepts_settling before.ledger settling) refuses
  have generation : (after ⟨before, action⟩).dir.generation =
      (before.ledger.act .swap action outcome).generation := congrArg Ledger.generation ledger
  have updating : (after ⟨before, action⟩).dir.updating =
      (before.ledger.act .swap action outcome).updating := congrArg Ledger.updating ledger
  cases action with
  | insert label name encname => exact absurd settling Bool.false_ne_true
  | update e => exact absurd settling Bool.false_ne_true
  | lookupName name => exact absurd settling Bool.false_ne_true
  | lookupEncname encname => exact absurd settling Bool.false_ne_true
  | beginUpdate hold g =>
    -- either the update went nowhere, and does so again, or its generation is the present one
    refine ⟨_, .begun hold ?_⟩
    rw [generation]
    show g = 0 ∨ g = (before.ledger.beginUpdate .swap g).generation
    rw [Ledger.generation_beginUpdate]
    by_cases begins : before.ledger.Begins g
    · exact .inr (if_pos begins).symm
    · rw [if_neg begins]
      have nowhere := Decidable.not_and_iff_or_not.mp begins
      exact nowhere.imp Decidable.of_not_not fun same => (Decidable.of_not_not same).symm
  | endUpdate => exact ⟨_, .ended (updating.trans Ledger.updating_endUpdate)⟩
  | abortUpdate => exact ⟨_, .aborted (updating.trans Ledger.updating_abortUpdate)⟩
  | purge => exact ⟨_, .purged fun e => Deed.not_holds_purged ⟨before, .purge⟩ sound rfl⟩

end NameCache
