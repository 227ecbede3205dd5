/-
  What a request about one directory answers.

  An action that a request asks for is a deed, and the answer is the outcome of the deed, put in
  words (`Moment.reply_within`).  So what is known of deeds is known of answers.
-/
import NameCache.Proofs.Directory.Insertions
import NameCache.Proofs.Session.Courses

namespace NameCache

open Step

variable {w : World} {dir : Directory} {d e : Nat} {action : Action} {m : Moment}
  {label : String} {name encname : Bytes}

theorem Request.reply_eq (r : Request) (w : World) :
    (r.answer w).1.reply =
      match r.run w with
      | .ok reply _ => .ok reply
      | .error refusal _ => .error refusal := by
  rw [answer]
  cases r.run w <;> rfl

/-- An answer shows what was recorded of keys on top of the log that the request found. -/
theorem Request.keys_eq {r : Request} {recorded : List KeyEvent}
    (gained : (r.answer w).2.log.keys = recorded.reverse ++ w.log.keys) :
    (r.answer w).1.keys = recorded :=
  Log.keys_since gained

/-- It shows the events that were recorded on top of it. -/
theorem Request.events_eq {r : Request} {recorded : List Event}
    (gained : (r.answer w).2.log.events = recorded.reverse ++ w.log.events) :
    (r.answer w).1.events = recorded :=
  Log.events_since gained

/-- An action on a directory runs there, and what it answers is put in words. -/
theorem Command.run_within (here : w.directory? d = some dir)
    (known : ∀ e, action = .update e → e < w.entries.size) :
    (Command.within d action).run w =
      match action.run .swap (w.opened dir) with
      | .ok outcome s => .ok (outcomeReply (w.put d s) action outcome) (w.put d s)
      | .error fault s => .error (.fault fault) (w.put d s) := by
  have found : Running.directory d w = .ok dir w := by
    rw [Running.directory, need_run, here]
  have work : (do
      let outcome ← Running.perform (World.onDirectory d dir (action.run .swap))
      return outcomeReply (← get) action outcome : Running Reply) w =
        match action.run .swap (w.opened dir) with
        | .ok outcome s => .ok (outcomeReply (w.put d s) action outcome) (w.put d s)
        | .error fault s => .error (.fault fault) (w.put d s) := by
    cases ran : action.run .swap (w.opened dir) with
    | ok outcome s =>
      have performed : Running.perform (World.onDirectory d dir (action.run .swap)) w =
          .ok outcome (w.put d s) := by
        rw [Running.perform, World.onDirectory, Step.focus, ran]
        rfl
      rw [bind_of_ok performed]
      rfl
    | error fault s =>
      have performed : Running.perform (World.onDirectory d dir (action.run .swap)) w =
          .error (.fault fault) (w.put d s) := by
        rw [Running.perform, World.onDirectory, Step.focus, ran]
        rfl
      rw [bind_of_error performed]
  rw [Command.run, act, bind_of_ok found]
  cases action with
  | update e =>
    have there : Running.entry e w = .ok (w.entries.entry e) w := by
      rw [Running.entry, need_run, Entries.getElem?_of_lt (known e rfl)]
    exact (bind_of_ok there).trans work
  | _ => exact work

/-- What is answered to an action on a directory that exists. -/
theorem Moment.reply_within (m : Moment) (heard : m.heard = true)
    (command : m.request.command = .within d action)
    (here : m.before.directory? d = some dir)
    (known : ∀ e, action = .update e → e < m.before.entries.size) :
    (m.request.answer m.before).1.reply.toOption =
      (Deed.outcome ⟨m.before.opened dir, action⟩).map (Command.outcomeReply m.after action) := by
  have run := m.run_eq
  rw [if_pos heard, command, Command.run_within here known] at run
  rw [Request.reply_eq, run, Deed.outcome, Moment.after, Request.answer_snd, settled, run]
  cases action.run .swap (m.before.opened dir) <;> rfl

/-- An action that runs to its end is answered with its outcome in words. -/
theorem Moment.reply_of_run (m : Moment) (heard : m.heard = true)
    (command : m.request.command = .within d action)
    (here : m.before.directory? d = some dir)
    (known : ∀ e, action = .update e → e < m.before.entries.size) {outcome : Outcome} {s : Opened}
    (ran : action.run .swap (m.before.opened dir) = .ok outcome s) :
    (m.request.answer m.before).1.reply =
      .ok (Command.outcomeReply (m.before.put d s) action outcome) := by
  have run := m.run_eq
  rw [if_pos heard, command, Command.run_within here known, ran] at run
  rw [Request.reply_eq, run]

/-- What an action on a directory that exists leaves. -/
theorem Moment.after_within (m : Moment) (heard : m.heard = true)
    (command : m.request.command = .within d action)
    (here : m.before.directory? d = some dir)
    (known : ∀ e, action = .update e → e < m.before.entries.size) :
    m.after = m.before.put d (Deed.after ⟨m.before.opened dir, action⟩) := by
  rw [m.after_eq, if_pos heard, command, settled, Command.run_within here known, Deed.after,
    settled]
  cases action.run .swap (m.before.opened dir) <;> rfl

/-- An answer to an action on a directory shows that the directory exists. -/
theorem Moment.directory_of_reply (m : Moment) {reply : Reply}
    (command : m.request.command = .within d action)
    (replied : (m.request.answer m.before).1.reply = .ok reply) :
    m.heard = true ∧ ∃ dir, m.before.directory? d = some dir := by
  have run := m.run_eq
  rw [Request.reply_eq] at replied
  by_cases heard : m.heard = true
  · refine ⟨heard, ?_⟩
    rw [if_pos heard, command] at run
    cases here : m.before.directory? d with
    | some dir => exact ⟨dir, rfl⟩
    | none =>
      have missing : Running.directory d m.before = .error (.missing .directory) m.before := by
        rw [Running.directory, need_run, here]
      have refused : (Command.within d action).run m.before =
          .error (.missing .directory) m.before := bind_of_error missing
      rw [run, refused] at replied
      exact absurd replied (by rintro ⟨⟩)
  · rw [if_neg heard] at run
    rw [run] at replied
    exact absurd replied (by rintro ⟨⟩)

/-- An entry that an insertion answered with was inserted by a deed. -/
theorem Moment.inserts (m : Moment) {g : UInt64}
    (command : m.request.command = .within d (.insert label name encname))
    (replied : (m.request.answer m.before).1.reply = .ok (.inserted e g)) :
    ∃ deed ∈ m.deeds d, deed.action = .insert label name encname ∧ deed.inserted = some e := by
  obtain ⟨heard, dir, here⟩ := m.directory_of_reply command replied
  have shown := m.reply_within heard command here nofun
  rw [replied] at shown
  obtain ⟨outcome, answer, words⟩ := Option.map_eq_some_iff.mp shown.symm
  refine ⟨⟨m.before.opened dir, .insert label name encname⟩, ?_, rfl, ?_⟩
  · rw [deeds, if_pos heard, command, Command.deeds, if_pos rfl, here]
    exact List.mem_singleton.mpr rfl
  · rw [Deed.inserted, answer]
    cases outcome with
    | made e' =>
      obtain ⟨rfl, -⟩ := Reply.inserted.inj words
      rfl
    | _ => exact absurd words (by rintro ⟨⟩)

end NameCache
