/-
  What a lookup answers.

  In every session in which no two directories on one pool have the same number, a lookup answers
  with the latest insertion under the name whose entry is still live, and with nothing if there is
  none; and it changes nothing but a counter and the trace (`Session.lookups`).  For plain names
  the directory has to be clean.
-/
import NameCache.Proofs.Directory.Finding
import NameCache.Proofs.Session.Answers

namespace NameCache

variable {w : World} {past : List Moment} {dir : Directory} {d e : Nat} {kind : NameKind}
  {text : Bytes} {r : Request} {action : Action}

/-- The latest insertion into directory `d` under a name whose entry is still live. -/
def World.latest (w : World) (past : List Moment) (d : Nat) (kind : NameKind) (text : Bytes) :
    Option Deed.Record :=
  (Deed.records (deedsOf past d)).find? fun x =>
    (w.entries.entry x.entry).live && x.text kind == text

/-- A lookup in a directory answered with an insertion, or nothing, and changed nothing else than
    one counter and the trace. -/
structure World.Finds (w : World) (dir : Directory) (r : Request) (kind : NameKind) (text : Bytes)
    (found : Option Deed.Record) : Prop where
  reply : (r.answer w).1.reply =
    .ok (.found (found.map fun x => (x.entry, w.entries.entry x.entry)))
  /-- The directory holds what is found, under both names that it was inserted under. -/
  hit : ∀ x, found = some x → dir.Holds x.entry ∧
    (w.entries.entry x.entry).name = x.name ∧ (w.entries.entry x.entry).encname = x.encname
  /-- Nothing is found exactly if the directory holds no entry of that name. -/
  miss : found = none ↔ ∀ e, dir.Holds e → (w.entries.entry e).text kind ≠ text
  counted : (r.answer w).2.tally dir.manager = (w.tally dir.manager).addLookup found.isSome
  rest : ∃ event, (r.answer w).2 =
    { w with
      tallies := w.tallies.setIfInBounds dir.manager
        ((w.tally dir.manager).addLookup found.isSome)
      log := w.log.emit event }

/-- What a lookup leaves: the world as it was, but for a counter and the trace. -/
theorem World.put_lookedUp (here : w.directory? d = some dir) (kind : NameKind) (text : Bytes)
    (found : Option Nat) : ∃ event, w.put d ((w.opened dir).lookedUp kind text found) =
      { w with
        tallies := w.tallies.setIfInBounds dir.manager
          ((w.tally dir.manager).addLookup found.isSome)
        log := w.log.emit event } :=
  ⟨_, w.put_recorded here _ _⟩

/-- What is found is held, under both names that it was inserted under. -/
theorem Session.latest_hit (session : Session past w) (here : w.directory? d = some dir)
    {x : Deed.Record} (found : w.latest past d kind text = some x) : dir.Holds x.entry ∧
    (w.entries.entry x.entry).name = x.name ∧ (w.entries.entry x.entry).encname = x.encname := by
  have course := session.course here
  have was := List.mem_of_find?_eq_some found
  have wanted := List.find?_some found
  rw [Bool.and_eq_true] at wanted
  refine ⟨course.holds_iff.mpr ⟨?_, wanted.1⟩, course.named was⟩
  rw [← course.map_records]
  exact List.mem_map_of_mem was

/-- Nothing is found exactly if nothing of that name is held. -/
theorem Session.latest_miss (session : Session past w) (here : w.directory? d = some dir) :
    w.latest past d kind text = none ↔
      ∀ e, dir.Holds e → (w.entries.entry e).text kind ≠ text := by
  have course := session.course here
  have same : ∀ x ∈ Deed.records (deedsOf past d),
      (w.entries.entry x.entry).text kind = x.text kind := fun x hx => course.text hx
  rw [World.latest, List.find?_eq_none]
  constructor
  · intro off e held text_eq
    obtain ⟨inserted, live⟩ := course.holds_iff.mp held
    rw [← course.map_records] at inserted
    obtain ⟨x, hx, rfl⟩ := List.mem_map.mp inserted
    refine off x hx ?_
    rw [Bool.and_eq_true, beq_iff_eq, ← same x hx]
    exact ⟨live, text_eq⟩
  · intro off x hx wanted
    rw [Bool.and_eq_true, beq_iff_eq] at wanted
    refine off x.entry (course.holds_iff.mpr ⟨?_, wanted.1⟩) ((same x hx).trans wanted.2)
    rw [← course.map_records]
    exact List.mem_map_of_mem hx

/-- A lookup that finds the latest insertion does all that. -/
theorem Session.finds (session : Session past w) (here : w.directory? d = some dir)
    (heard : (⟨w, r⟩ : Moment).heard = true) (command : r.command = .within d action)
    (looks : (∃ name, action = .lookupName name) ∨ ∃ encname, action = .lookupEncname encname)
    (run : action.run .swap (w.opened dir) =
      .ok (.found ((w.latest past d kind text).map (·.entry)))
        ((w.opened dir).lookedUp kind text ((w.latest past d kind text).map (·.entry)))) :
    w.Finds dir r kind text (w.latest past d kind text) := by
  have known : ∀ e, action = .update e → e < w.entries.size := by
    rintro e rfl
    rcases looks with ⟨name, h⟩ | ⟨encname, h⟩ <;> exact absurd h (by rintro ⟨⟩)
  have left : Deed.after ⟨w.opened dir, action⟩ = (w.opened dir).lookedUp kind text
      ((w.latest past d kind text).map (·.entry)) := Step.settled_of_ok run
  obtain ⟨event, after⟩ := World.put_lookedUp here kind text
    ((w.latest past d kind text).map (·.entry))
  rw [← left, Option.isSome_map] at after
  have world := (Moment.after_within ⟨w, r⟩ heard command here known).trans after
  replace world : (r.answer w).2 = _ := world
  constructor
  case reply =>
    have outcome : Deed.outcome ⟨w.opened dir, action⟩ =
        some (.found ((w.latest past d kind text).map (·.entry))) := by rw [Deed.outcome, run]
    have replied := Moment.reply_within ⟨w, r⟩ heard command here known
    replace replied : (r.answer w).1.reply.toOption =
      (Deed.outcome ⟨w.opened dir, action⟩).map
        (Command.outcomeReply (r.answer w).2 action) := replied
    rw [outcome, world] at replied
    cases answered : (r.answer w).1.reply with
    | error refusal =>
      rw [answered] at replied
      exact absurd replied (by rintro ⟨⟩)
    | ok a =>
      rw [answered] at replied
      obtain rfl := Option.some.inj replied
      rcases looks with ⟨name, rfl⟩ | ⟨encname, rfl⟩
      all_goals
        show Except.ok (Reply.found (Option.map _ (Option.map _ _))) = _
        rw [Option.map_map]
        rfl
  case hit => exact fun x found => session.latest_hit here found
  case miss => exact session.latest_miss here
  case counted =>
    rw [world, World.tally]
    show ((w.tallies.setIfInBounds dir.manager _)[dir.manager]?).getD {} = _
    rw [Array.getElem?_setIfInBounds, if_pos rfl,
      if_pos (session.sound.hosts.manager_lt d dir here)]
    rfl
  case rest => exact ⟨event, world⟩

/-- No other directory on the pool of directory `d`, which is `dir`, has its number. -/
def World.Unmistaken (w : World) (d : Nat) (dir : Directory) : Prop :=
  ∀ d' dir', w.directory? d' = some dir' → dir'.pool = dir.pool → dir'.id = dir.id → d' = d

/-- No two directories on one pool have the same number. -/
def World.Apart (w : World) : Prop :=
  ∀ d d' dir dir', w.directory? d = some dir → w.directory? d' = some dir' →
    dir.pool = dir'.pool → dir.id = dir'.id → d = d'

theorem World.Apart.unmistaken (apart : w.Apart) (here : w.directory? d = some dir) :
    w.Unmistaken d dir :=
  fun d' dir' there same_pool same_id => apart d' d dir' dir there here same_pool same_id

/-- What another directory on the pool holds has another number. -/
theorem World.Sound.strange (sound : w.Sound) (unmistaken : w.Unmistaken d dir) :
    ∀ e, Family.HeldBeside w.directory? d dir.pool e → (w.entries.entry e).dir ≠ dir.id := by
  rintro e ⟨d', dir', ne, present, same_pool, held⟩ own
  have theirs : (w.entries.entry e).dir = dir'.id := (sound.hosts.opened present).holds_own held
  exact ne (unmistaken d' dir' present same_pool (theirs.symm.trans own))

/-- Lookups find the latest insertions that are still live: by encrypted name at any time, and by
    plain name in a clean directory, where what is found is of the directory's generation. -/
theorem Session.lookups (session : Session past w)
    (apart : ∀ d d' dir dir', w.directory? d = some dir → w.directory? d' = some dir' →
      dir.pool = dir'.pool → dir.id = dir'.id → d = d')
    (here : w.directory? d = some dir)
    (heard : ∀ d', r.about = some d' → (w.directory? d').isSome = true) :
    (∀ name, r.command = .within d (.lookupName name) → dir.status = .clean →
      w.Finds dir r .plain name (w.latest past d .plain name) ∧
      ∀ x, w.latest past d .plain name = some x →
        (w.entries.entry x.entry).generation = dir.generation) ∧
    (∀ encname, r.command = .within d (.lookupEncname encname) →
      w.Finds dir r .encrypted encname (w.latest past d .encrypted encname)) := by
  have course := session.course here
  have opened := session.sound.hosts.opened here
  have there : (⟨w, r⟩ : Moment).heard = true := by
    rw [Moment.heard, Option.all_eq_true]
    exact heard
  have strange := session.sound.strange (World.Apart.unmistaken apart here)
  refine ⟨fun name command clean => ?_, fun encname command => ?_⟩
  · obtain ⟨idle, none_stale⟩ := opened.standing.status_clean.mp clean
    have run := Opened.lookupName_run opened.standing idle none_stale name
    rw [Opened.findName_eq course opened strange none_stale name] at run
    have finds : w.Finds dir r .plain name (w.latest past d .plain name) :=
      session.finds here there command (.inl ⟨name, rfl⟩) (Step.bind_of_ok run)
    refine ⟨finds, fun x found => ?_⟩
    obtain ⟨held, -⟩ := finds.hit x found
    refine opened.current (held.resolve_right fun stale => ?_)
    exact absurd (none_stale ▸ stale) List.not_mem_nil
  · have run := Opened.lookupEncname_run encname (w.opened dir)
    rw [Opened.findEncname_eq course opened strange encname] at run
    exact session.finds here there command (.inr ⟨encname, rfl⟩) (Step.bind_of_ok run)

/-- After a scan the entry confirmed is found by its name, and the one destroyed is not. -/
theorem Session.lookups_after_scan : ∃ past w, Session past w ∧
    (Request.answer ⟨none, .within 0 (.lookupName [3])⟩ w).1.reply =
      .ok (.found (some (1, w.entries.entry 1))) ∧
    (Request.answer ⟨none, .within 0 (.lookupName [1])⟩ w).1.reply = .ok (.found none) := by
  have session := Session.small.answers Request.scan
  have apart : ∀ d d' dir dir',
      (World.small.answers Request.scan).2.directory? d = some dir →
      (World.small.answers Request.scan).2.directory? d' = some dir' →
      dir.pool = dir'.pool → dir.id = dir'.id → d = d' := by
    intro d d' dir dir' here there _ _
    have one : (World.small.answers Request.scan).2.directories.size = 1 := by decide +kernel
    have first := World.lt_of_directory? here
    have second := World.lt_of_directory? there
    omega
  obtain ⟨dir, here⟩ := Option.isSome_iff_exists.mp
    (show ((World.small.answers Request.scan).2.directory? 0).isSome = true by decide +kernel)
  have clean : dir.status = .clean := by
    have found : ((World.small.answers Request.scan).2.directory? 0).map (·.status) =
        some .clean := by decide +kernel
    rw [here] at found
    exact Option.some.inj found
  have look : ∀ name, _ := fun name => (Session.lookups (r := ⟨none, .within 0 (.lookupName name)⟩)
    session apart here nofun).1 name rfl clean
  have latest : ∀ name e, ((World.small.answers Request.scan).2.latest
      (World.small.moments [] Request.scan) 0 .plain name).map (·.entry) = e →
      (Request.answer ⟨none, .within 0 (.lookupName name)⟩
        (World.small.answers Request.scan).2).1.reply =
          .ok (.found (e.map (World.small.answers Request.scan).2.shown)) := by
    rintro name e rfl
    rw [(look name).1.reply, Option.map_map]
    rfl
  exact ⟨_, _, session, latest [3] (some 1) (by decide +kernel),
    latest [1] none (by decide +kernel)⟩

end NameCache
