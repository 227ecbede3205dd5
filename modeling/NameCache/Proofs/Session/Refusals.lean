/-
  Which requests to a directory are refused, and what a refusal leaves.

  A directory stops on a fault for a caller's mistake and for nothing else (`Opened.Objects`): a
  name that cannot be cached, an entry that is not its own, a plain name looked up too early.  What
  would be a breach of the cache's own bookkeeping is never met, and whoever was refused finds the
  whole world as it was (`Session.refusals`).

  The crux is the confirmation of an entry.  The caller may hold on to any entry ever made, also of
  another directory with the same number, and its node may be in use by a later entry; it is
  refused unless it was inserted through this very directory and is still live.
-/
import NameCache.Proofs.Session.Answers

namespace NameCache

open Step

variable {w : World} {past : List Moment} {dir : Directory} {d e : Nat} {action : Action}

/-- Whether a request stops on a fault. -/
def Request.Stops (r : Request) (w : World) : Prop :=
  ∃ fault, (r.answer w).1.reply = .error (.fault fault)

/-- A request has been refused with a fault: the world is as it was, and nothing was recorded. -/
structure Request.Refused (r : Request) (w : World) (fault : Fault) : Prop where
  reply : (r.answer w).1.reply = .error (.fault fault)
  same : (r.answer w).2 = w
  keys : (r.answer w).1.keys = []
  events : (r.answer w).1.events = []

/-- Whether an action is open to every caller at every time. -/
def Action.unguarded : Action → Bool
  | .insert .. | .update _ | .lookupName _ => false
  | .lookupEncname _ | .beginUpdate .. | .endUpdate | .abortUpdate | .purge => true

/-- An unguarded action is always accepted. -/
theorem Ledger.accepts_unguarded (l : Ledger) (unguarded : action.unguarded = true) :
    l.Accepts action := by
  cases action with
  | insert label name encname => exact absurd unguarded Bool.false_ne_true
  | update e => exact absurd unguarded Bool.false_ne_true
  | lookupName name => exact absurd unguarded Bool.false_ne_true
  | _ => trivial

theorem Request.recorded_eq (r : Request) (w : World) :
    ((r.answer w).1.keys, (r.answer w).1.events) = (r.answer w).2.log.since w.log := rfl

/-- A request that leaves the world as it was records nothing. -/
theorem Request.Refused.of_same {r : Request} {fault : Fault}
    (reply : (r.answer w).1.reply = .error (.fault fault)) (same : (r.answer w).2 = w) :
    r.Refused w fault := by
  have recorded := r.recorded_eq w
  rw [same, Log.since_self] at recorded
  obtain ⟨keys, events⟩ := Prod.mk.inj recorded
  exact ⟨reply, same, keys, events⟩

/-- An action on a directory that exists is answered if it is accepted, and else refused with what
    stands against it. -/
theorem Moment.answers_within (m : Moment) (sound : m.before.Sound) (heard : m.heard = true)
    (command : m.request.command = .within d action)
    (here : m.before.directory? d = some dir)
    (known : ∀ e, action = .update e → e < m.before.entries.size) :
    ((m.before.opened dir).ledger.Accepts action ∧
      ∃ reply, (m.request.answer m.before).1.reply = .ok reply) ∨
    (¬ (m.before.opened dir).ledger.Accepts action ∧
      ∃ fault, (m.before.opened dir).Objects action fault ∧
        m.request.Refused m.before fault) := by
  have opened := sound.hosts.opened here
  have run := m.run_eq
  rw [if_pos heard, command, Command.run_within here known] at run
  have reply := Request.reply_eq m.request m.before
  by_cases accepts : (m.before.opened dir).ledger.Accepts action
  · obtain ⟨outcome, s', ran, -⟩ := Opened.accepted_spec opened .swap action accepts
    rw [ran] at run
    rw [run] at reply
    exact .inl ⟨accepts, _, reply⟩
  · obtain ⟨fault, objects, ran⟩ := Opened.refused_spec opened .swap action accepts
    rw [ran] at run
    replace run : m.request.run m.before =
      .error (.fault fault) (m.before.put d (m.before.opened dir)) := run
    rw [World.put_opened here] at run
    rw [run] at reply
    have same : (m.request.answer m.before).2 = m.before := by
      rw [Request.answer_snd]
      exact settled_of_error run
    exact .inr ⟨accepts, fault, objects, .of_same reply same⟩

/-- So it stops exactly if it is not accepted. -/
theorem Moment.stops_within (m : Moment) (sound : m.before.Sound) (heard : m.heard = true)
    (command : m.request.command = .within d action)
    (here : m.before.directory? d = some dir)
    (known : ∀ e, action = .update e → e < m.before.entries.size) :
    m.request.Stops m.before ↔ ¬ (m.before.opened dir).ledger.Accepts action := by
  rcases m.answers_within sound heard command here known with
    ⟨accepts, reply, answered⟩ | ⟨refuses, fault, -, refused⟩
  · refine ⟨?_, fun refuses => absurd accepts refuses⟩
    rintro ⟨fault, stopped⟩
    exact absurd (answered.symm.trans stopped) (by simp)
  · exact ⟨fun _ => refuses, fun _ => ⟨fault, refused.reply⟩⟩

/-- A directory that exists can always be dropped. -/
theorem Moment.answers_drop (m : Moment) (sound : m.before.Sound) (heard : m.heard = true)
    (command : m.request.command = .drop d) (here : m.before.directory? d = some dir) :
    (m.request.answer m.before).1.reply = .ok .done := by
  have found : Running.directory d m.before = .ok dir m.before := by
    rw [Running.directory, need_run, here]
  obtain ⟨s, n, dropped, -⟩ := dropDirectory_settled sound here
  have performed : Running.perform (World.dropDirectory d dir) m.before =
      .ok n (m.before.without d s) := by
    rw [Running.perform, dropped]
  have run := m.run_eq
  rw [if_pos heard, command, Command.run, bind_of_ok found, bind_of_ok performed] at run
  rw [Request.reply_eq, run]
  rfl

/-- In every session, an insertion stops exactly on names that cannot be cached, a confirmation on
    entries that are not live entries inserted through the directory, and a lookup by plain name
    during an update and while stale entries wait; the other actions and the drop of a directory
    never stop.  What stops changes nothing. -/
theorem Session.refusals (session : Session past w) (here : w.directory? d = some dir) {r : Request}
    (heard : ∀ d', r.about = some d' → (w.directory? d').isSome = true) :
    (∀ label name encname, r.command = .within d (.insert label name encname) →
      (r.Stops w ↔ ¬ (Entry.FitName name ∧ Entry.FitName encname))) ∧
    (∀ e, r.command = .within d (.update e) → e < w.entries.size →
      (r.Stops w ↔
        ¬ (e ∈ Deed.insertions (deedsOf past d) ∧ (w.entries.entry e).live = true))) ∧
    (∀ name, r.command = .within d (.lookupName name) →
      (r.Stops w ↔ dir.status = .updating ∨ dir.staleEntries ≠ [])) ∧
    (∀ action, r.command = .within d action → action.unguarded = true →
      ∃ reply, (r.answer w).1.reply = .ok reply) ∧
    (r.command = .drop d → (r.answer w).1.reply = .ok .done) ∧
    (∀ action, r.command = .within d action → (∀ e, action = .update e → e < w.entries.size) →
      (∃ reply, (r.answer w).1.reply = .ok reply) ∨
      ∃ fault, (w.opened dir).Objects action fault ∧ r.Refused w fault) := by
  have sound := session.sound
  have there : (⟨w, r⟩ : Moment).heard = true := by
    rw [Moment.heard, Option.all_eq_true]
    exact heard
  refine ⟨fun label name encname command => ?_, fun e command known => ?_,
    fun name command => ?_, fun action command unguarded => ?_, fun command => ?_,
    fun action command known => ?_⟩
  · exact Moment.stops_within ⟨w, r⟩ sound there command here (by simp)
  · have stops := Moment.stops_within ⟨w, r⟩ sound there command here (by rintro _ ⟨⟩; exact known)
    have accepts : (w.opened dir).ledger.Accepts (.update e) ↔
        e ∈ Deed.insertions (deedsOf past d) ∧ (w.entries.entry e).live = true :=
      (session.course here).holds_iff
    exact stops.trans (not_congr accepts)
  · have stops := Moment.stops_within ⟨w, r⟩ sound there command here (by simp)
    refine stops.trans ?_
    show ¬ (dir.updating = false ∧ dir.staleEntries = []) ↔ _
    rw [Decidable.not_and_iff_not_or_not, Bool.not_eq_false, Directory.status_updating]
  · have known : ∀ e, action = .update e → e < w.entries.size := by
      rintro e rfl
      exact absurd unguarded Bool.false_ne_true
    rcases Moment.answers_within ⟨w, r⟩ sound there command here known with
      ⟨-, answered⟩ | ⟨refuses, -⟩
    · exact answered
    · exact absurd (Ledger.accepts_unguarded _ unguarded) refuses
  · exact Moment.answers_drop ⟨w, r⟩ sound there command here
  · rcases Moment.answers_within ⟨w, r⟩ sound there command here known with
      ⟨-, answered⟩ | ⟨-, refused⟩
    · exact .inl answered
    · exact .inr refused

/-- After a scan the entry that it destroyed cannot be confirmed, and the other one can. -/
theorem Session.refusals_after_scan : ∃ past w, Session past w ∧
    Request.Stops ⟨some 0, .within 0 (.update 0)⟩ w ∧
    ¬ Request.Stops ⟨some 0, .within 0 (.update 1)⟩ w := by
  have session := Session.small.answers Request.scan
  have exists_dir : ((World.small.answers Request.scan).2.directory? 0).isSome = true := by
    decide +kernel
  obtain ⟨dir, here⟩ := Option.isSome_iff_exists.mp exists_dir
  have confirm : ∀ e, _ := fun e => (Session.refusals session here
    (r := ⟨some 0, .within 0 (.update e)⟩) (by rintro _ ⟨⟩; exact exists_dir)).2.1 e rfl
  refine ⟨_, _, session, (confirm 0 (by decide +kernel)).mpr ?_, fun stops => ?_⟩
  · decide +kernel
  · exact (confirm 1 (by decide +kernel)).mp stops (by decide +kernel)

end NameCache
