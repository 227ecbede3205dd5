/-
  Requests that change nothing.

  In every session a request that finds nothing to do (`Opened.Idles`) is answered, and leaves the
  whole world as it found it: every list, every generation, every table, key and counter.  Only a
  hold that had to be given up on the way shows in the trace.  So finishing, giving up, purging and
  beginning an update, asked for twice, do no more than asked for once.
-/
import NameCache.Proofs.Directory.Idling
import NameCache.Proofs.Session.Refusals

namespace NameCache

open Step

variable {w : World} {past : List Moment} {dir : Directory} {d : Nat} {r : Request}
  {action : Action} {outcome : Outcome}

/-- A request has found nothing to do: it was answered, the world is as it was, and nothing was
    recorded but the giving up of a hold. -/
structure Request.Idle (r : Request) (w : World) (reply : Reply) (trace : List Event) : Prop where
  reply : (r.answer w).1.reply = .ok reply
  same : (r.answer w).2 = { w with log := w.log.emitAll trace }
  keys : (r.answer w).1.keys = []
  events : (r.answer w).1.events = trace

/-- A directory put back with nothing but the log written to. -/
theorem World.put_logged (here : w.directory? d = some dir) (log : Log) :
    w.put d { w.opened dir with log } = { w with log } := by
  refine (w.put_recorded here (w.tally dir.manager) log).trans ?_
  rw [w.set_tally]

/-- An action that finds nothing to do makes an idle request. -/
theorem Opened.Idles.request (idles : (w.opened dir).Idles action outcome) (sound : w.Sound)
    (here : w.directory? d = some dir) (command : r.command = .within d action)
    (heard : (⟨w, r⟩ : Moment).heard = true) :
    r.Idle w (Command.outcomeReply w action outcome) (action.trace dir.id) := by
  have opened := sound.hosts.opened here
  have run : action.run .swap (w.opened dir) =
      .ok outcome { w.opened dir with log := w.log.emitAll (action.trace dir.id) } :=
    idles.run opened .swap
  have known : ∀ e, action = .update e → e < w.entries.size := by
    rintro e rfl
    cases idles with
    | confirmed held _ => exact opened.holds_lt held
  have put := w.put_logged here (w.log.emitAll (action.trace dir.id))
  have reply := Moment.reply_of_run ⟨w, r⟩ heard command here known run
  replace reply : (r.answer w).1.reply = .ok (Command.outcomeReply
    (w.put d { w.opened dir with log := w.log.emitAll (action.trace dir.id) }) action outcome) :=
      reply
  have after := Moment.after_within ⟨w, r⟩ heard command here known
  replace after : (r.answer w).2 = w.put d (Deed.after ⟨w.opened dir, action⟩) := after
  rw [Deed.after, settled_of_ok run, put] at after
  have keys : (r.answer w).2.log.keys = [].reverse ++ w.log.keys := by rw [after]; rfl
  have events : (r.answer w).2.log.events =
      (action.trace dir.id).reverse ++ w.log.events := by rw [after]; rfl
  refine ⟨?_, after, Request.keys_eq keys, Request.events_eq events⟩
  rw [reply, put]
  cases idles <;> rfl

/-- Whatever such a request did, the same request finds nothing to do after it. -/
theorem Moment.settles (m : Moment) (sound : m.before.Sound)
    (here : m.before.directory? d = some dir) (command : m.request.command = .within d action)
    (heard : m.heard = true) (settling : action.settling = true) :
    ∃ reply, m.request.Idle m.after reply (action.trace dir.id) := by
  have known : ∀ e, action = .update e → e < m.before.entries.size := by
    rintro e rfl
    exact absurd settling Bool.false_ne_true
  have opened := sound.hosts.opened here
  obtain ⟨sound₁, leads⟩ := Deed.leads ⟨m.before.opened dir, action⟩ opened
  obtain ⟨outcome, idles⟩ := Deed.settles ⟨m.before.opened dir, action⟩ opened settling
  obtain ⟨there, same⟩ := sound.opened_put here leads
  have after := m.after_within heard command here known
  rw [← after] at there same
  have sound' : m.after.Sound := after ▸ sound.put here sound₁ leads
  have heard' : (⟨m.after, m.request⟩ : Moment).heard = true := by
    rw [Moment.heard, Option.all_eq_true] at heard ⊢
    intro d' about
    by_cases this : d' = d
    · rw [this]
      exact Option.isSome_iff_exists.mpr ⟨_, there⟩
    · have elsewhere : m.after.directory? d' = m.before.directory? d' := by
        rw [after, World.directory?_put here, Family.set_ne this]
      show (m.after.directory? d').isSome = true
      rw [elsewhere]
      exact heard d' about
  rw [← same] at idles
  have idle := idles.request sound' there command heard'
  have id : (Deed.after ⟨m.before.opened dir, action⟩).dir.id = dir.id := leads.id
  rw [id] at idle
  exact ⟨_, idle⟩

/-- In every session, finishing or giving up an update that is not under way, beginning one to no
    generation or to the present one, and confirming an entry of a clean directory are answered and
    change nothing; and finishing, giving up or beginning an update and a purge, done again, change
    nothing more. -/
theorem Session.idling (session : Session past w) (here : w.directory? d = some dir)
    (heard : ∀ d', r.about = some d' → (w.directory? d').isSome = true) :
    (r.command = .within d .endUpdate → dir.status ≠ .updating → r.Idle w (.count 0) []) ∧
    (r.command = .within d .abortUpdate → dir.status ≠ .updating → r.Idle w .done []) ∧
    (∀ hold g, r.command = .within d (.beginUpdate hold g) → g = 0 ∨ g = dir.generation →
      r.Idle w (.generation dir.generation) (hold.trace dir.id)) ∧
    (∀ e, r.command = .within d (.update e) → dir.status = .clean →
      e ∈ Deed.insertions (deedsOf past d) → (w.entries.entry e).live = true →
      r.Idle w (.updated dir.generation) []) ∧
    (∀ action, r.command = .within d action → action.settling = true →
      ∃ reply, r.Idle (r.answer w).2 reply (action.trace dir.id)) := by
  have sound := session.sound
  have opened := sound.hosts.opened here
  have there : (⟨w, r⟩ : Moment).heard = true := by
    rw [Moment.heard, Option.all_eq_true]
    exact heard
  have not_updating : dir.status ≠ .updating → dir.updating = false := fun idle =>
    Bool.eq_false_iff.mpr fun h => idle (Directory.status_updating.mpr h)
  refine ⟨fun command idle => ?_, fun command idle => ?_, fun hold g command nowhere => ?_,
    fun e command clean inserted live => ?_, fun action command settling => ?_⟩
  · exact Opened.Idles.request (.ended (not_updating idle)) sound here command there
  · exact Opened.Idles.request (.aborted (not_updating idle)) sound here command there
  · exact Opened.Idles.request (.begun hold nowhere) sound here command there
  · have held : dir.Holds e := (session.course here).holds_iff.mpr ⟨inserted, live⟩
    have idle := Opened.Idles.request (w := w) (.confirmed held clean) sound here command there
    -- nothing is stale in a clean directory, so the entry has its generation
    have none_stale : dir.staleEntries = [] := (opened.standing.status_clean.mp clean).2
    have active : e ∈ dir.activeEntries := held.resolve_right fun stale => by
      rw [none_stale] at stale
      exact List.not_mem_nil stale
    have current : (w.entries.entry e).generation = dir.generation := opened.current active
    rw [← current]
    exact idle
  · exact Moment.settles ⟨w, r⟩ sound here command there settling

/-- After a scan to generation 7 a shared hold is given up for nothing, and the entry confirmed in
    it can be confirmed again; a purge is done once. -/
theorem Session.idling_after_scan : ∃ past w, Session past w ∧
    Request.Idle ⟨some 0, .within 0 .endUpdate⟩ w (.count 0) [] ∧
    Request.Idle ⟨some 0, .within 0 .abortUpdate⟩ w .done [] ∧
    Request.Idle ⟨some 0, .within 0 (.beginUpdate .shared 7)⟩ w (.generation 7) [.reacquired 1] ∧
    Request.Idle ⟨some 0, .within 0 (.update 1)⟩ w (.updated 7) [] ∧
    ∃ reply, Request.Idle ⟨some 0, .within 0 .purge⟩
      (Request.answer ⟨some 0, .within 0 .purge⟩ w).2 reply [] := by
  have session := Session.small.answers Request.scan
  have found : ((World.small.answers Request.scan).2.directory? 0).map
      (fun dir => (dir.id, dir.generation, dir.status)) = some (1, 7, .clean) := by
    decide +kernel
  obtain ⟨dir, here, shown⟩ := Option.map_eq_some_iff.mp found
  obtain ⟨id, rest⟩ := Prod.mk.inj shown
  obtain ⟨generation, clean⟩ := Prod.mk.inj rest
  have calm : dir.status ≠ .updating := by
    rw [clean]
    decide
  have idling := fun (action : Action) => Session.idling session here
    (r := ⟨some 0, .within 0 action⟩) (by rintro _ ⟨⟩; rw [here]; rfl)
  rw [generation, id] at idling
  refine ⟨_, _, session, (idling .endUpdate).1 rfl calm, (idling .abortUpdate).2.1 rfl calm,
    (idling _).2.2.1 .shared 7 rfl (.inr rfl),
    (idling _).2.2.2.1 1 rfl clean (by decide +kernel) (by decide +kernel),
    (idling _).2.2.2.2 .purge rfl rfl⟩

end NameCache
