/-
  Purging, dropping and destroying a directory.

  All three destroy the entries of the directory in one order, the stale list from the front and
  then the active one, whatever the directory is in the middle of (`Request.Empties`).  A purge
  leaves the directory with its generation and its update; the other two leave nothing of it.

  The pool may be shared, so the entries go from the midst of others, one at a time.  What the
  buckets are afterwards needs no following of the loops: a bucket holds the entries that belong
  there in the order of their numbers, before and after, and exactly these entries are gone.
-/
import NameCache.Proofs.Directory.Emptying
import NameCache.Proofs.Session.Counts
import NameCache.Proofs.Session.Pools
import NameCache.Proofs.Session.Refusals

namespace NameCache

open Step

variable {w w' : World} {past : List Moment} {dir : Directory} {d e p : Nat} {s : Opened}
  {r : Request}

namespace World

/-- A world after all entries of directory `d`, which was `dir`, were destroyed. -/
structure Emptied (w w' : World) (d : Nat) (dir : Directory) : Prop where
  elsewhere : ∀ d', d' ≠ d → w'.directory? d' = w.directory? d'
  /-- Nothing is left of these entries, and every other one is as it was. -/
  size : w'.entries.size = w.entries.size
  entry : ∀ e, w'.entries.entry e =
    if e ∈ dir.purgeOrder then (w.entries.entry e).spent else w.entries.entry e
  /-- They have gone from the buckets, and what else is there is there in the same order. -/
  bucket : ∀ p kind hash, ((w'.pool p).table kind).bucket hash =
    (((w.pool p).table kind).bucket hash).filter (· ∉ dir.purgeOrder)
  /-- Both tables of the pool are shorter by their number, and no other is. -/
  length : ∀ p kind, ((w'.pool p).table kind).length +
    (if dir.pool = p then dir.length else 0) = ((w.pool p).table kind).length
  /-- So is the count of entries of the manager, and it has destroyed as many more. -/
  tally : ∀ m, w'.tally m =
    if m = dir.manager then (w.tally m).addFrees dir.length else w.tally m

/-- What is held when the entries of a directory are destroyed is what was held besides. -/
theorem heldOn_emptied (sound : w.Sound) (here : w.directory? d = some dir)
    (elsewhere : ∀ d', d' ≠ d → w'.directory? d' = w.directory? d')
    (empty : ∀ dir', w'.directory? d = some dir' → ∀ e, ¬ dir'.Holds e) :
    Family.HeldOn w'.directory? p e ↔ Family.HeldOn w.directory? p e ∧ e ∉ dir.purgeOrder := by
  rw [Opened.mem_purgeOrder]
  constructor
  · rintro ⟨d', dir', there, on_pool, held⟩
    have other : d' ≠ d := by
      rintro rfl
      exact empty dir' there e held
    rw [elsewhere d' other] at there
    refine ⟨⟨d', dir', there, on_pool, held⟩, fun mine => other ?_⟩
    exact sound.hosts.disjoint d' d dir' dir e there here held mine
  · rintro ⟨⟨d', dir', there, on_pool, held⟩, off⟩
    have other : d' ≠ d := by
      rintro rfl
      obtain rfl := Option.some.inj (here.symm.trans there)
      exact off held
    exact ⟨d', dir', (elsewhere d' other).trans there, on_pool, held⟩

/-- If the entries of a directory were destroyed where it was opened, they are in the world. -/
theorem Sound.emptied (sound : w.Sound) (sound' : w'.Sound) (here : w.directory? d = some dir)
    (leads : (w.opened dir).Leads s) (empties : (w.opened dir).Emptied s)
    {directories : Array (Option Directory)} {log : Log}
    (left : w' = { w.closed s with directories, log })
    (count : w'.directories.size = w.directories.size)
    (elsewhere : ∀ d', d' ≠ d → w'.directory? d' = w.directory? d')
    (empty : ∀ dir', w'.directory? d = some dir' → ∀ e, ¬ dir'.Holds e) : w.Emptied w' d dir := by
  have entries : w'.entries = s.entries := congrArg World.entries left
  have tally : ∀ m, w'.tally m = (w.closed s).tally m := fun m => by rw [left]; rfl
  have shape : ∀ p, (w'.pool p).shape = (w.pool p).shape := by
    intro p
    rw [left]
    exact w.shape_closed empties.shape p
  have entry : ∀ e, w'.entries.entry e =
      if e ∈ dir.purgeOrder then (w.entries.entry e).spent else w.entries.entry e := by
    intro e
    rw [entries]
    exact empties.entry e
  constructor
  case elsewhere => exact elsewhere
  case size => rw [entries, empties.size]; rfl
  case entry => exact entry
  case bucket =>
    intro p kind hash
    have after := sound'.bucket p kind hash
    have before := sound.bucket p kind hash
    have place := fun hash => (Table.indices_of_shape (Pool.shape_table (shape p) kind) hash).1
    refine eq_of_descending after.1 (before.1.filter _) fun e => ?_
    rw [after.2, List.mem_filter, before.2, heldOn_emptied sound here elsewhere empty,
      decide_eq_true_iff, place, place, entry]
    -- an entry that stays has the names that it had, so it belongs where it did
    constructor
    · rintro ⟨⟨held, stays⟩, belongs⟩
      rw [if_neg stays] at belongs
      exact ⟨⟨held, belongs⟩, stays⟩
    · rintro ⟨⟨held, belongs⟩, stays⟩
      rw [if_neg stays]
      exact ⟨⟨held, stays⟩, belongs⟩
  case length =>
    intro p kind
    have there : w'.directory? = Family.set w.directory? d (w'.directory? d) := by
      funext d'
      by_cases same : d' = d
      · rw [same, Family.set_self]
      · rw [Family.set_ne same, elsewhere d' same]
    have nothing : share (·.pool == p) (w'.directory? d) = 0 := by
      cases left : w'.directory? d with
      | none => rfl
      | some dir' =>
        have none : dir'.length = 0 := by
          rw [(sound'.hosts.standing d dir' left).length_eq]
          have active : dir'.activeEntries = [] :=
            List.eq_nil_iff_forall_not_mem.mpr fun e he => empty dir' left e (.inl he)
          have stale : dir'.staleEntries = [] :=
            List.eq_nil_iff_forall_not_mem.mpr fun e he => empty dir' left e (.inr he)
          rw [active, stale]
          rfl
        rw [share_some, none, ite_self]
    have moved := census_set (q := (·.pool == p)) (lt_of_directory? here) count there
    rw [here, nothing, share_some] at moved
    simp only [beq_iff_eq] at moved
    rw [sound'.hosts.length_table, sound.hosts.length_table]
    exact moved
  case tally =>
    intro m
    have manager : s.dir.manager = dir.manager := leads.manager
    rw [tally, tally_closed s (manager ▸ sound.hosts.manager_lt d dir here), manager]
    by_cases mine : m = dir.manager
    · rw [if_pos mine, if_pos mine, empties.tally, mine]
      rfl
    · rw [if_neg mine, if_neg mine]

end World

/-- A request has destroyed the entries of a directory. -/
structure Request.Empties (r : Request) (w : World) (d : Nat) (dir : Directory) : Prop where
  /-- They were destroyed in order, each as it was before. -/
  events : (r.answer w).1.events.filter Event.frees = w.entries.freeings dir.id dir.purgeOrder
  /-- Each of them gave its key back, in the same order, and no other key was touched. -/
  keys : (r.answer w).1.keys.map some =
    dir.purgeOrder.map fun e => (w.entries.entry e).key.map .released
  emptied : w.Emptied (r.answer w).2 d dir

/-- It has if it left the log of a directory whose entries were destroyed, with other events on top
    of it. -/
theorem Request.Empties.of_emptied (sound : w.Sound) (here : w.directory? d = some dir)
    (empties : (w.opened dir).Emptied s) (emptied : w.Emptied (r.answer w).2 d dir)
    (more : List Event) (keys : (r.answer w).2.log.keys = s.log.keys)
    (events : (r.answer w).2.log.events = more.reverse ++ s.log.events)
    (unrelated : more.filter Event.frees = []) : r.Empties w d dir := by
  constructor
  case events =>
    have gained : (r.answer w).2.log.events = (w.entries.freeings dir.id dir.purgeOrder ++
        Opened.purgeTrace dir.id dir.length ++ more).reverse ++ w.log.events := by
      rw [events, empties.events, ← List.append_assoc, ← List.reverse_append]
      rfl
    rw [Request.events_eq gained, List.filter_append, List.filter_append,
      Entries.filter_freeings, Entries.filter_purgeTrace, unrelated, List.append_nil,
      List.append_nil]
  case keys =>
    have gained : (r.answer w).2.log.keys =
        (w.entries.releases dir.purgeOrder).reverse ++ w.log.keys := keys.trans empties.keys
    rw [Request.keys_eq gained]
    exact Entries.map_some_releases fun e he => sound.live here (Opened.mem_purgeOrder.mp he)
  case emptied => exact emptied

/-! ## A purge -/

/-- A purge destroys the entries of the directory and answers their number. -/
theorem Moment.purges (m : Moment) (sound : m.before.Sound) (heard : m.heard = true)
    (command : m.request.command = .within d .purge) (here : m.before.directory? d = some dir) :
    (m.request.answer m.before).1.reply = .ok (.count dir.length) ∧
    m.request.Empties m.before d dir ∧
    ∃ dir', m.after.directory? d = some dir' ∧ dir'.activeEntries = [] ∧
      dir'.staleEntries = [] ∧ dir'.generation = dir.generation ∧ dir'.updating = dir.updating := by
  obtain ⟨w, r⟩ := m
  obtain ⟨s, run, opened, leads, empties⟩ := Opened.purge_empties (sound.hosts.opened here)
  have ran : Action.run .swap .purge (w.opened dir) = .ok (.freed dir.length) s :=
    Step.bind_of_ok run
  have after := Moment.after_within ⟨w, r⟩ heard command here (by simp)
  replace after : (r.answer w).2 = w.put d (Deed.after ⟨w.opened dir, .purge⟩) := after
  rw [Deed.after, settled_of_ok ran] at after
  obtain ⟨there, -⟩ := sound.opened_put here leads
  have emptied : w.Emptied (r.answer w).2 d dir := by
    rw [after]
    refine sound.emptied (sound.put here opened leads) here leads empties rfl
      Array.size_setIfInBounds (fun d' other => ?_) fun dir' left => ?_
    · rw [World.directory?_put here, Family.set_ne other]
    · obtain rfl := Option.some.inj (there.symm.trans left)
      exact empties.not_holds
  refine ⟨Moment.reply_of_run ⟨w, r⟩ heard command here (by simp) ran,
    .of_emptied sound here empties emptied [] ?_ ?_ rfl, s.dir, ?_, empties.activeEntries,
    empties.staleEntries, empties.generation, empties.updating⟩
  · rw [after]
    rfl
  · rw [after]
    rfl
  · show (r.answer w).2.directory? d = some s.dir
    rw [after]
    exact there

/-! ## A directory that goes -/

/-- A directory that is dropped is purged first. -/
theorem World.Sound.dropDirectory_empties (sound : w.Sound) (here : w.directory? d = some dir) :
    ∃ s, World.dropDirectory d dir w = .ok ()
        (w.without d { s with log := s.log.emit (.destroyed dir.id dir.length) }) ∧
      s.Sound (Family.HeldBeside w.directory? d dir.pool) ∧ (w.opened dir).Leads s ∧
      (w.opened dir).Emptied s := by
  obtain ⟨s, run, opened, leads, empties⟩ := Opened.purge_empties (sound.hosts.opened here)
  refine ⟨s, ?_, opened, leads, empties⟩
  rw [World.dropDirectory, Step.modify_bind, World.finish, World.onLoose]
  exact Step.focus_of_ok (Step.bind_of_ok (s := w.opened dir) run)

/-- What comes of dropping directory `d`, or of destroying it through a manager that exists: it is
    purged and gone, and if the manager shares another pool, the return of this one is refused. -/
theorem Command.run_drops (sound : w.Sound) (here : w.directory? d = some dir) {c : Command}
    (drops : c = .drop d ∨ ∃ m manager, c = .destroy d m ∧ w.manager? m = some manager) :
    ∃ s more, (w.opened dir).Emptied s ∧ (w.opened dir).Leads s ∧
      s.Sound (Family.HeldBeside w.directory? d dir.pool) ∧
      settled c.run w = w.without d
        { s with log := (s.log.emit (.destroyed dir.id dir.length)).emitAll more } ∧
      ∀ event ∈ more, event = .freedPool ∨ event = .poolStillReferenced := by
  obtain ⟨s, run, opened, leads, empties⟩ := sound.dropDirectory_empties here
  rcases drops with rfl | ⟨m, manager, rfl, hm⟩
  · refine ⟨s, [], empties, leads, opened, ?_, fun event h => absurd h List.not_mem_nil⟩
    rw [Command.settled_drop, here]
    exact settled_of_ok run
  · let w₁ := w.without d { s with log := s.log.emit (.destroyed dir.id dir.length) }
    have sound₁ : w₁.Sound :=
      sound.without here (opened.recorded _ _) (leads.trans (.recorded _ _ _)) empties.not_holds
    have back := sound₁.takeBack_settled manager.provision dir.pool
    have settles : settled (Command.run (.destroy d m)) w =
        settled (World.takeBack manager.provision dir.pool) w₁ := by
      rcases Command.destroy_cases w d m with ⟨missing, -⟩ | ⟨dir', manager', here', hm', settles⟩
      · rw [here, hm] at missing
        exact absurd missing (by simp)
      · obtain rfl := Option.some.inj (here.symm.trans here')
        obtain rfl := Option.some.inj (hm.symm.trans hm')
        rw [settles, settled_bind_of_ok run]
    refine ⟨s, w₁.takeBackTrace dir.pool manager.provision, empties, leads, opened, ?_,
      fun event => World.mem_takeBackTrace⟩
    rw [settles, back]
    rfl

/-- So a directory that goes is emptied as by a purge. -/
theorem Moment.drops (m : Moment) (sound : m.before.Sound) (heard : m.heard = true)
    (here : m.before.directory? d = some dir)
    (drops : m.request.command = .drop d ∨
      ∃ n manager, m.request.command = .destroy d n ∧ m.before.manager? n = some manager) :
    m.request.Empties m.before d dir ∧ m.after.directory? d = none := by
  obtain ⟨w, r⟩ := m
  obtain ⟨s, more, empties, leads, opened, settles, only⟩ := Command.run_drops sound here drops
  have after := r.after_eq w
  rw [if_pos heard, settles] at after
  have gone : (r.answer w).2.directory? = Family.set w.directory? d none := by
    rw [after]
    exact World.directory?_without here
  have emptied : w.Emptied (r.answer w).2 d dir := by
    have sound' : (r.answer w).2.Sound := by
      rw [after]
      exact sound.without here (opened.recorded _ _) (leads.trans (.recorded _ _ _))
        empties.not_holds
    refine sound.emptied sound' here leads empties after ?_ (fun d' other => ?_)
      fun dir' left => ?_
    · rw [after]
      exact Array.size_setIfInBounds
    · rw [gone, Family.set_ne other]
    · rw [gone, Family.set_self] at left
      exact absurd left (by simp)
  refine ⟨.of_emptied sound here empties emptied (.destroyed dir.id dir.length :: more) ?_ ?_ ?_, ?_⟩
  · rw [after]
    rfl
  · rw [after, List.reverse_cons, List.append_assoc]
    rfl
  · refine List.filter_eq_nil_iff.mpr fun event h => ?_
    rcases List.mem_cons.mp h with rfl | h
    · exact Bool.false_ne_true
    · rcases only event h with rfl | rfl
      · exact Bool.false_ne_true
      · exact Bool.false_ne_true
  · show (r.answer w).2.directory? d = none
    rw [gone, Family.set_self]

/-- In every session, whatever state a directory is in, a purge answers its number of entries and
    destroys them in order, and leaves the directory empty, in its generation and its update; and a
    directory that is dropped, or destroyed through a manager, is gone, and the same entries were
    destroyed in the same order. -/
theorem Session.emptying (session : Session past w) (here : w.directory? d = some dir)
    (heard : ∀ d', r.about = some d' → (w.directory? d').isSome = true) :
    dir.purgeOrder.Nodup ∧ dir.purgeOrder.length = dir.length ∧
    (r.command = .within d .purge →
      (r.answer w).1.reply = .ok (.count dir.length) ∧ r.Empties w d dir ∧
      ∃ dir', (r.answer w).2.directory? d = some dir' ∧ dir'.activeEntries = [] ∧
        dir'.staleEntries = [] ∧ dir'.generation = dir.generation ∧
        dir'.updating = dir.updating) ∧
    (r.command = .drop d ∨
      (∃ m manager, r.command = .destroy d m ∧ w.manager? m = some manager) →
      r.Empties w d dir ∧ (r.answer w).2.directory? d = none) := by
  have sound := session.sound
  have opened := sound.hosts.opened here
  have there : (⟨w, r⟩ : Moment).heard = true := by
    rw [Moment.heard, Option.all_eq_true]
    exact heard
  refine ⟨opened.purgeOrder_nodup, opened.length_purgeOrder, fun command => ?_, fun drops => ?_⟩
  · exact Moment.purges ⟨w, r⟩ sound there command here
  · exact Moment.drops ⟨w, r⟩ sound there here drops

/-- Of two directories on one pool, the first one is half way through a scan that has confirmed the
    older of its two entries. -/
def Request.halfway : List Request :=
  Request.mingled ++ [⟨none, .within 0 (.beginUpdate .exclusive 7)⟩, ⟨none, .within 0 (.update 0)⟩]

/-- There a purge takes the entry that waits and then the one that was confirmed, and so does the
    end of the directory, although the second manager refuses its pool. -/
theorem Session.emptying_halfway : ∃ past w dir, Session past w ∧ w.directory? 0 = some dir ∧
    dir.status = .updating ∧ dir.purgeOrder = [2, 0] ∧
    (Request.answer ⟨none, .within 0 .purge⟩ w).1.reply = .ok (.count 2) ∧
    Request.Empties ⟨none, .within 0 .purge⟩ w 0 dir ∧
    (Request.answer ⟨none, .destroy 0 1⟩ w).1.reply.toOption = none ∧
    Request.Empties ⟨none, .destroy 0 1⟩ w 0 dir := by
  have session := Session.pair.answers Request.halfway
  have found : ((World.pair.answers Request.halfway).2.directory? 0).map
      (fun dir => (dir.status, dir.purgeOrder, dir.length)) = some (.updating, [2, 0], 2) := by
    decide +kernel
  obtain ⟨dir, here, shown⟩ := Option.map_eq_some_iff.mp found
  obtain ⟨scanning, rest⟩ := Prod.mk.inj shown
  obtain ⟨order, length⟩ := Prod.mk.inj rest
  have second : ((World.pair.answers Request.halfway).2.manager? 1).isSome = true := by
    decide +kernel
  obtain ⟨manager, hm⟩ := Option.isSome_iff_exists.mp second
  have purges := (Session.emptying session here (r := ⟨none, .within 0 .purge⟩) (by simp)).2.2.1 rfl
  have drops := (Session.emptying session here (r := ⟨none, .destroy 0 1⟩) (by simp)).2.2.2
    (.inr ⟨1, manager, rfl, hm⟩)
  rw [length] at purges
  exact ⟨_, _, dir, session, here, scanning, order, purges.1, purges.2.1, by decide +kernel, drops.1⟩

end NameCache
