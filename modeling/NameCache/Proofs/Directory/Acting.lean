/-
  One specification for all operations of a directory.

  An action is accepted or refused, and the ledger decides which (`Ledger.Accepts`).  An accepted
  one answers as `Ledger.Answers` says and turns the ledger into `Ledger.act`; a refused one changes
  nothing and stops on the fault that stands against it (`Opened.Objects`).  What a lookup finds is
  up to the tables, so the ledger takes that from the answer.
-/
import NameCache.Proofs.Directory.Operations

namespace NameCache

namespace Ledger

/-- Whether an action is accepted. -/
def Accepts (l : Ledger) : Action → Prop
  | .insert _ name encname => Entry.FitName name ∧ Entry.FitName encname
  | .update e => l.Holds e
  | .lookupName _ => l.updating = false ∧ l.stale = []
  | .lookupEncname _ => True
  | .beginUpdate _ _ => True
  | .endUpdate => True
  | .abortUpdate => True
  | .purge => True

instance (l : Ledger) (action : Action) : Decidable (l.Accepts action) := by
  cases action <;> unfold Accepts <;> infer_instance

/-- What an accepted action answers. -/
def Answers (expiry : Expiry) (l : Ledger) : Action → Outcome → Prop
  | .insert _ _ _, outcome => outcome = .made l.entries.size
  | .update _, outcome => outcome = .done
  | .lookupName _, outcome => ∃ e, outcome = .found e
  | .lookupEncname _, outcome => ∃ e, outcome = .found e
  | .beginUpdate _ g, outcome => outcome = .began (l.beginUpdate expiry g).generation
  | .endUpdate, outcome => outcome = .freed (if l.updating then l.stale.length else 0)
  | .abortUpdate, outcome => outcome = .done
  | .purge, outcome => outcome = .freed (l.stale.length + l.active.length)

/-- The ledger after a lookup was counted. -/
def counted (l : Ledger) : Outcome → Ledger
  | .found e => { l with tally := l.tally.addLookup e.isSome }
  | _ => l

/-- The ledger after an accepted action that gave an answer. -/
def act (expiry : Expiry) (l : Ledger) : Action → Outcome → Ledger
  | .insert label name encname, _ => l.insert expiry label name encname
  | .update e, _ => l.confirm expiry e
  | .lookupName _, outcome => l.counted outcome
  | .lookupEncname _, outcome => l.counted outcome
  | .beginUpdate _ g, _ => l.beginUpdate expiry g
  | .endUpdate, _ => l.endUpdate
  | .abortUpdate, _ => l.abortUpdate expiry
  | .purge, _ => l.purge

end Ledger

namespace Opened

variable {s s' : Opened} {others : Nat → Prop} {expiry : Expiry} {action : Action}

/-- An accepted action gives an answer and leads on. -/
theorem accepted_spec (sound : s.Sound others) (expiry : Expiry) (action : Action)
    (accepts : s.ledger.Accepts action) :
    ∃ outcome s', action.run expiry s = .ok outcome s' ∧ s'.Sound others ∧ s.Leads s' ∧
      s.ledger.Answers expiry action outcome ∧ s'.ledger = s.ledger.act expiry action outcome := by
  cases action with
  | insert label name encname =>
    obtain ⟨s', run, sound', leads, ledger⟩ := insert_spec sound accepts expiry label
    refine ⟨.made s.entries.size, s', Step.bind_of_ok run, sound', leads, ?_, ledger⟩
    exact congrArg Outcome.made Array.size_map.symm
  | update e =>
    obtain ⟨s', run, sound', leads, ledger⟩ := update_spec sound accepts expiry
    exact ⟨.done, s', Step.bind_of_ok run, sound', leads, rfl, ledger⟩
  | lookupName name =>
    have run := lookupName_run sound.standing accepts.1 accepts.2 name
    exact ⟨.found (s.findName name), _, Step.bind_of_ok run, sound.recorded _ _,
      .recorded _ _ _, ⟨_, rfl⟩, rfl⟩
  | lookupEncname encname =>
    have run := lookupEncname_run encname s
    exact ⟨.found (s.findEncname encname), _, Step.bind_of_ok run, sound.recorded _ _,
      .recorded _ _ _, ⟨_, rfl⟩, rfl⟩
  | beginUpdate hold g =>
    -- giving a hold up is recorded in the trace and nowhere else
    have given : ∃ log : Log, log.keys = s.log.keys ∧
        Action.giveUp hold s = .ok () { s with log } := by
      cases hold with
      | exclusive => exact ⟨s.log, rfl, rfl⟩
      | shared => exact ⟨s.log.emit (.reacquired s.dir.id), rfl, rfl⟩
      | upgradable => exact ⟨s.log, rfl, rfl⟩
      | contended => exact ⟨s.log.emit (.upgradeFailed s.dir.id), rfl, rfl⟩
    obtain ⟨log, keys, given⟩ := given
    obtain ⟨s', run, sound', leads, ledger⟩ :=
      beginUpdate_spec (s := { s with log }) (sound.recorded s.tally log) expiry g
    have same : ({ s with log } : Opened).ledger = s.ledger := by
      ext1
      case keys => exact keys
      all_goals rfl
    rw [same] at ledger
    refine ⟨.began s'.dir.generation, s', ?_, sound', (Leads.recorded s s.tally log).trans leads,
      congrArg (fun l : Ledger => Outcome.began l.generation) ledger, ledger⟩
    exact (Step.bind_of_ok given).trans (Step.bind_of_ok run)
  | endUpdate =>
    obtain ⟨s', run, sound', leads, ledger⟩ := endUpdate_spec sound
    exact ⟨_, s', Step.bind_of_ok run, sound', leads, rfl, ledger⟩
  | abortUpdate =>
    obtain ⟨s', run, sound', leads, ledger⟩ := abortUpdate_spec sound expiry
    exact ⟨.done, s', Step.bind_of_ok run, sound', leads, rfl, ledger⟩
  | purge =>
    obtain ⟨s', run, sound', leads, ledger⟩ := purge_spec sound
    exact ⟨_, s', Step.bind_of_ok run, sound', leads, rfl, ledger⟩

/-- What stands against an action, as the fault that it is refused with. -/
inductive Objects (s : Opened) : Action → Fault → Prop
  /-- A name to insert is empty or too long. -/
  | length {label : String} {name encname : Bytes}
    (unfit : ¬ (Entry.FitName name ∧ Entry.FitName encname)) :
    Objects s (.insert label name encname) (.badNameLength name.length encname.length)
  /-- The entry to confirm is of another directory. -/
  | foreign {e : Nat} (other : (s.entries.entry e).dir ≠ s.dir.id) :
    Objects s (.update e) (.wrongDirectory (s.entries.entry e) s.dir.id)
  /-- The entry to confirm has the directory's number but is on neither of its lists. -/
  | gone {e : Nat} (own : (s.entries.entry e).dir = s.dir.id) (free : ¬ s.dir.Holds e) :
    Objects s (.update e) (.destroyedEntry (s.entries.entry e))
  /-- A plain name is looked up during an update. -/
  | updating {name : Bytes} (scanning : s.dir.updating = true) :
    Objects s (.lookupName name) (.lookupWhileUpdating s.dir.id)
  /-- A plain name is looked up while stale entries wait. -/
  | stale {name : Bytes} (idle : s.dir.updating = false) (pending : s.dir.staleEntries ≠ []) :
    Objects s (.lookupName name) (.lookupWhileStale s.dir.id s.dir.staleEntries.length)

/-- A refused action changes nothing and stops on what stands against it. -/
theorem refused_spec (sound : s.Sound others) (expiry : Expiry) (action : Action)
    (refuses : ¬ s.ledger.Accepts action) :
    ∃ fault, s.Objects action fault ∧ action.run expiry s = .error fault s := by
  cases action with
  | insert label name encname =>
    exact ⟨_, .length refuses, Step.bind_of_error (insert_refused refuses expiry label s)⟩
  | update e =>
    by_cases own : (s.entries.entry e).dir = s.dir.id
    · exact ⟨_, .gone own refuses, Step.bind_of_error (update_gone sound own refuses expiry)⟩
    · exact ⟨_, .foreign own, Step.bind_of_error (update_foreign own expiry)⟩
  | lookupName name =>
    by_cases scanning : s.dir.updating = true
    · exact ⟨_, .updating scanning, Step.bind_of_error (lookupName_updating scanning name)⟩
    · have idle := Bool.eq_false_iff.mpr scanning
      have pending : s.dir.staleEntries ≠ [] := fun clean => refuses ⟨idle, clean⟩
      exact ⟨_, .stale idle pending,
        Step.bind_of_error (lookupName_stale sound.standing idle pending name)⟩
  | lookupEncname _ => exact absurd trivial refuses
  | beginUpdate _ _ => exact absurd trivial refuses
  | endUpdate => exact absurd trivial refuses
  | abortUpdate => exact absurd trivial refuses
  | purge => exact absurd trivial refuses

end Opened

end NameCache
