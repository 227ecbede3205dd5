/-
  Which list an entry is on, and which requests destroy it.

  Whatever happened in a session, the active list of a directory is told by the directory's deeds
  alone, whoever else was at work (`Session.placement`).  Entries are destroyed by the end of an
  update, by a purge, and by dropping the directory; no other request destroys any entry.
-/
import NameCache.Proofs.Directory.Recency
import NameCache.Proofs.Session.Answers

namespace NameCache

variable {w w' : World} {past : List Moment} {dir : Directory} {d e : Nat} {c : Command}
  {deeds : List Deed} {s s' : Opened} {others : Nat → Prop}

/-- Deeds that neither end an update nor purge let go of nothing. -/
theorem Chain.holds (chain : Chain s deeds s') (sound : s.Sound others) (held : s.dir.Holds e)
    (spares : ∀ deed ∈ deeds, (deed.action = .endUpdate →
      ¬ (deed.before.dir.updating = true ∧ e ∈ deed.before.dir.staleEntries)) ∧
        deed.action ≠ .purge) : s'.dir.Holds e := by
  induction chain with
  | nil => exact held
  | @cons deeds s₁ action chain ih =>
    obtain ⟨this, earlier⟩ := List.forall_mem_cons.mp spares
    exact Deed.holds_after ⟨s₁, action⟩ (chain.leads sound).1 (ih earlier) this.1 this.2

/-- An entry that a passage destroys was stale in a directory that ended its update, or was held by
    a directory that was purged or dropped. -/
theorem Command.Passage.destroys (passage : c.Passage w w') (sound : w.Sound)
    (live : (w.entries.entry e).live = true) (dead : (w'.entries.entry e).live = false) :
    ∃ d dir, w.directory? d = some dir ∧ dir.Holds e ∧
      ((c = .within d .endUpdate ∧ dir.updating = true ∧ e ∈ dir.staleEntries) ∨
        c = .within d .purge ∨ c = .drop d ∨ ∃ m, c = .destroy d m) := by
  have bound : e < w.entries.size := Entries.lt_of_live live
  have changed : w'.entries.entry e ≠ w.entries.entry e := fun same => by
    rw [same, live] at dead
    exact Bool.false_ne_true dead.symm
  -- only a directory that holds the entry can have destroyed it
  have holder : ∀ {d : Nat} {dir : Directory} {s : Opened}, (w.opened dir).Leads s →
      w'.entries = s.entries → dir.Holds e := by
    intro d dir s leads same
    refine Classical.byContradiction fun off => changed ?_
    rw [same]
    exact leads.apart e bound off
  cases passage with
  | quiet quiet _ => exact absurd (congrArg (·.entry e) quiet.entries) changed
  | taken _ _ _ _ => exact absurd rfl changed
  | given _ _ _ => exact absurd rfl changed
  | made quiet _ _ _ _ => exact absurd (congrArg (·.entry e) quiet.entries) changed
  | @worked d dir s here chain _ =>
    obtain ⟨sound', leads⟩ := chain.leads (sound.hosts.opened here)
    have held := holder (d := d) leads rfl
    refine ⟨d, dir, here, held, ?_⟩
    -- deeds of any other kind would have kept it
    refine Classical.byContradiction fun spares => ?_
    have kept : s.dir.Holds e := chain.holds (sound.hosts.opened here) held fun deed was => by
      rcases Command.deeds_cases here c with ⟨action, command, deeds⟩ | calm
      · rw [deeds, List.mem_singleton] at was
        subst was
        refine ⟨fun ends stale => spares (.inl ?_), fun purges => spares (.inr (.inl ?_))⟩
        · exact ⟨command.trans (congrArg (Command.within d) ends), stale⟩
        · exact command.trans (congrArg (Command.within d) purges)
      · rcases calm deed was with ⟨encname, h⟩ | ⟨e, h⟩
        · rw [h]
          exact ⟨by simp, by simp⟩
        · rw [h]
          exact ⟨by simp, by simp⟩
    have alive : (s.entries.entry e).live = true := sound'.holds_live kept
    exact Bool.false_ne_true (dead.symm.trans alive)
  | @gone d dir s _ here _ leads _ _ quiet drops _ =>
    refine ⟨d, dir, here, holder (d := d) leads quiet.entries, .inr (.inr ?_)⟩
    exact drops

/-- The end of an update destroys the stale entries and counts them. -/
theorem Moment.ends_update (m : Moment) (sound : m.before.Sound) (heard : m.heard = true)
    (command : m.request.command = .within d .endUpdate)
    (here : m.before.directory? d = some dir) (scanning : dir.updating = true) :
    (m.request.answer m.before).1.reply.toOption = some (.count dir.staleEntries.length) ∧
      ∀ e, e < m.before.entries.size → ((m.after.entries.entry e).live = true ↔
        (m.before.entries.entry e).live = true ∧ e ∉ dir.staleEntries) := by
  have opened := sound.hosts.opened here
  rw [m.reply_within heard command here nofun, m.after_within heard command here nofun]
  rcases Deed.cases ⟨m.before.opened dir, .endUpdate⟩ opened with
    ⟨refuses, -⟩ | ⟨-, outcome, answer, answers, -, opened', leads⟩
  · exact absurd trivial refuses
  · constructor
    · have freed : outcome = .freed dir.staleEntries.length :=
        Eq.trans answers (congrArg Outcome.freed (if_pos scanning))
      rw [answer, freed]
      rfl
    · intro e he
      have holds : (Deed.after ⟨m.before.opened dir, .endUpdate⟩).dir.Holds e ↔
          dir.Holds e ∧ ¬ (dir.updating = true ∧ e ∈ dir.staleEntries) :=
        Deed.holds_ended ⟨m.before.opened dir, .endUpdate⟩ opened rfl
      show ((Deed.after ⟨m.before.opened dir, .endUpdate⟩).entries.entry e).live = true ↔ _
      by_cases held : dir.Holds e
      · have alive := opened.holds_live held
        by_cases stale : e ∈ dir.staleEntries
        · have off : ¬ (Deed.after ⟨m.before.opened dir, .endUpdate⟩).dir.Holds e :=
            fun h => (holds.mp h).2 ⟨scanning, stale⟩
          have fate := leads.fate e (Nat.lt_of_lt_of_le he leads.grows) (.inl held)
          have gone := fate.resolve_left off
          rw [gone.not_live]
          exact ⟨fun h => absurd h Bool.false_ne_true, fun h => absurd stale h.2⟩
        · have kept := opened'.holds_live (holds.mpr ⟨held, fun h => stale h.2⟩)
          exact ⟨fun _ => ⟨alive, stale⟩, fun _ => kept⟩
      · have same := leads.apart e he held
        rw [same]
        exact ⟨fun live => ⟨live, fun stale => held (.inr stale)⟩, fun h => h.1⟩

/-- The lists of a directory are told by its history, and entries are destroyed by nothing but the
    end of an update, which destroys the stale ones, a purge, and dropping the directory. -/
theorem Session.placement (session : Session past w) :
    (∀ d dir, w.directory? d = some dir →
      (dir.activeEntries = (Deed.confirmedSince (deedsOf past d)).eraseDups.filter fun e =>
        (w.entries.entry e).live) ∧
      dir.staleEntries.Nodup ∧
      ∀ e, e ∈ dir.staleEntries ↔ e ∈ Deed.insertions (deedsOf past d) ∧
        (w.entries.entry e).live = true ∧ e ∉ dir.activeEntries) ∧
    (∀ (r : Request) d dir, (∀ d', r.about = some d' → (w.directory? d').isSome) →
      r.command = .within d .endUpdate → w.directory? d = some dir → dir.updating = true →
      (r.answer w).1.reply = .ok (.count dir.staleEntries.length) ∧
      ∀ e, e < w.entries.size → (((r.answer w).2.entries.entry e).live = true ↔
        (w.entries.entry e).live = true ∧ e ∉ dir.staleEntries)) ∧
    (∀ (r : Request) e, (w.entries.entry e).live = true →
      ((r.answer w).2.entries.entry e).live = false →
      ∃ d dir, w.directory? d = some dir ∧ dir.Holds e ∧
        ((r.command = .within d .endUpdate ∧ dir.updating = true ∧ e ∈ dir.staleEntries) ∨
          r.command = .within d .purge ∨ r.command = .drop d ∨ ∃ m, r.command = .destroy d m)) := by
  have sound := session.sound
  refine ⟨fun d dir here => ?_, fun r d dir heard command here scanning => ?_,
    fun r e live dead => ?_⟩
  · have course := session.course here
    have ledger := (sound.hosts.opened here).ledger
    refine ⟨course.recency, ledger.stale_nodup, fun e => ?_⟩
    constructor
    · intro stale
      obtain ⟨inserted, live⟩ := course.holds_iff.mp (.inr stale)
      exact ⟨inserted, live, fun active => ledger.disjoint e active stale⟩
    · rintro ⟨inserted, live, off⟩
      exact (course.holds_iff.mpr ⟨inserted, live⟩).resolve_left off
  · have there : (⟨w, r⟩ : Moment).heard = true := by
      rw [Moment.heard, Option.all_eq_true]
      exact heard
    obtain ⟨reply, fates⟩ := Moment.ends_update ⟨w, r⟩ sound there command here scanning
    refine ⟨?_, fates⟩
    cases answered : (r.answer w).1.reply with
    | ok a =>
      rw [answered] at reply
      rw [Option.some.inj reply]
    | error refusal =>
      rw [answered] at reply
      exact absurd reply (by rintro ⟨⟩)
  · rcases Moment.passage ⟨w, r⟩ sound with ⟨-, passage⟩ | ⟨same, -⟩
    · exact passage.destroys sound live dead
    · replace same : (r.answer w).2 = w := same
      rw [same, live] at dead
      exact absurd dead.symm Bool.false_ne_true

/-- In the middle of a scan the entry confirmed is active and the other one is stale, and the end of
    the scan destroys the other one. -/
theorem Session.placement_in_scan : ∃ past w, Session past w ∧
    ((Deed.confirmedSince (deedsOf past 0)).eraseDups.filter fun e => (w.entries.entry e).live) =
      [1] ∧
    (Request.answer ⟨none, .within 0 .endUpdate⟩ w).1.reply = .ok (.count 1) := by
  have session := Session.small.answers (Request.scan.take 5)
  obtain ⟨lists, ends, -⟩ := Session.placement session
  obtain ⟨dir, here⟩ := Option.isSome_iff_exists.mp
    (show ((World.small.answers (Request.scan.take 5)).2.directory? 0).isSome = true by
      decide +kernel)
  have found : ((World.small.answers (Request.scan.take 5)).2.directory? 0).map (fun dir =>
      (dir.activeEntries, dir.staleEntries, dir.updating)) = some ([1], [0], true) := by
    decide +kernel
  rw [here] at found
  obtain ⟨active, stale, scanning⟩ : dir.activeEntries = [1] ∧ dir.staleEntries = [0] ∧
      dir.updating = true := by simpa using found
  obtain ⟨reply, -⟩ := ends ⟨none, .within 0 .endUpdate⟩ 0 dir nofun rfl here scanning
  rw [stale] at reply
  exact ⟨_, _, session, (lists 0 dir here).1.symm.trans active, reply⟩

end NameCache
