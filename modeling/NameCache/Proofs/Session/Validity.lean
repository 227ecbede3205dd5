/-
  Which entries are valid in the middle of a scan.

  An entry is valid if it was inserted or confirmed since the update was begun, and these are the
  entries that the end of the update leaves.  They are the active ones, and each of them carries the
  generation of the update.  The converse depends on the past.  An entry that was demoted by
  exchanging the lists goes on carrying the generation that it was confirmed in, so when a
  generation is used again an entry that nobody has confirmed yet may look as if it had been
  (`Session.validity_fails`).  It takes an earlier update to the same generation, in which that very
  entry was confirmed (`Session.validity`).
-/
import NameCache.Proofs.Directory.Stamps
import NameCache.Proofs.Session.Placement

namespace NameCache

variable {w : World} {past : List Moment} {dir : Directory} {d e : Nat}

/-- In the middle of a scan the active entries are those inserted or confirmed since it was begun.
    The end of the scan leaves them and no others, and they carry the generation of the scan.  A
    stale entry that carries it too was confirmed in an earlier update to the same generation. -/
theorem Session.validity (session : Session past w) (here : w.directory? d = some dir)
    (scanning : dir.status = .updating) :
    ∃ since begin earlier, deedsOf past d = since ++ begin :: earlier ∧
      begin.begun = some dir.generation ∧ (∀ deed ∈ since, deed.begun = none) ∧
      ∀ e ∈ Deed.insertions (deedsOf past d), (w.entries.entry e).live = true →
        (e ∈ dir.activeEntries ↔ ∃ deed ∈ since, deed.inserted = some e ∨
          (deed.action = .update e ∧ deed.outcome = some .done)) ∧
        (e ∈ dir.activeEntries ↔
          ((Request.answer ⟨none, .within d .endUpdate⟩ w).2.entries.entry e).live = true) ∧
        (e ∈ dir.activeEntries → (w.entries.entry e).generation = dir.generation) ∧
        ((w.entries.entry e).generation = dir.generation → e ∉ dir.activeEntries →
          ∃ deed ∈ earlier, deed.confirmed = some e ∧ deed.before.dir.updating = true ∧
            deed.before.dir.generation = dir.generation) ∧
        ((∀ deed ∈ earlier, deed.begun ≠ some dir.generation) →
          ((w.entries.entry e).generation = dir.generation ↔ e ∈ dir.activeEntries)) := by
  have sound := session.sound
  have opened := sound.hosts.opened here
  have course := session.course here
  have under_way : dir.updating = true := Directory.status_updating.mp scanning
  obtain ⟨since, begin, earlier, split, begun, calm⟩ := course.bracket under_way
  have keeps : ∀ deed ∈ since, deed.demotes = false := fun deed was => (calm deed was).2.1
  refine ⟨since, begin, earlier, split, begun, fun deed was => (calm deed was).1, ?_⟩
  intro e inserted live
  have held : dir.Holds e := course.holds_iff.mpr ⟨inserted, live⟩
  have confirmed : e ∈ dir.activeEntries ↔ ∃ deed ∈ since, deed.confirmed = some e :=
    (course.active_iff split begun keeps).trans (and_iff_left live)
  have current : e ∈ dir.activeEntries → (w.entries.entry e).generation = dir.generation :=
    fun active => opened.current active
  have confused := course.stamped_before under_way split begun keeps held
  refine ⟨confirmed.trans ?_, ?_, current, fun stamp stale => confused stale stamp, ?_⟩
  · -- in the middle of an update, to be confirmed is to be inserted or updated
    apply exists_congr
    intro deed
    apply and_congr_right
    intro was
    obtain ⟨newer, older, here_was⟩ := List.append_of_mem was
    rw [here_was, List.append_assoc] at split
    obtain ⟨others, before⟩ := (course.until_deed split).sound
    exact deed.confirmed_iff before (calm deed was).2.2
  · obtain ⟨-, left⟩ := Moment.ends_update ⟨w, ⟨none, .within d .endUpdate⟩⟩ sound rfl rfl here
      under_way
    have lt : e < w.entries.size := opened.holds_lt held
    rw [show (Request.answer ⟨none, .within d .endUpdate⟩ w).2 =
      Moment.after ⟨w, ⟨none, .within d .endUpdate⟩⟩ from rfl, left e lt]
    constructor
    · intro active
      exact ⟨live, opened.ledger.disjoint e active⟩
    · rintro ⟨-, off⟩
      exact held.resolve_right off
  · intro anew
    constructor
    · intro stamp
      refine Classical.byContradiction fun stale => ?_
      -- whoever was confirmed in an update to that generation saw it begun
      obtain ⟨deed, was, -, updating, generation⟩ := confused stale stamp
      obtain ⟨other, before, began⟩ := (course.until_deed split).begun_of_updating was updating
      rw [generation] at began
      exact anew other before began
    · exact current

/-- In the middle of a scan to generation 7 the entry that was updated is active, and its update is
    found since the scan was begun. -/
theorem Session.validity_in_scan : ∃ past w dir, Session past w ∧ w.directory? 0 = some dir ∧
    dir.status = .updating ∧ 1 ∈ dir.activeEntries ∧
    ∃ since begin earlier, deedsOf past 0 = since ++ begin :: earlier ∧ begin.begun = some 7 ∧
      ∃ deed ∈ since, deed.inserted = some 1 ∨
        (deed.action = .update 1 ∧ deed.outcome = some .done) := by
  have session := Session.small.answers (Request.scan.take 5)
  have found : ((World.small.answers (Request.scan.take 5)).2.directory? 0).map (fun dir =>
      (dir.status, dir.generation, dir.activeEntries)) = some (.updating, 7, [1]) := by
    decide +kernel
  obtain ⟨dir, here, shown⟩ := Option.map_eq_some_iff.mp found
  obtain ⟨scanning, generation, active⟩ : dir.status = .updating ∧ dir.generation = 7 ∧
      dir.activeEntries = [1] := by simpa using shown
  have inserted : 1 ∈ Deed.insertions
      (deedsOf (World.small.moments [] (Request.scan.take 5)) 0) := by decide +kernel
  have live : ((World.small.answers (Request.scan.take 5)).2.entries.entry 1).live = true := by
    decide +kernel
  obtain ⟨since, begin, earlier, split, begun, -, told⟩ := Session.validity session here scanning
  obtain ⟨confirmed, -⟩ := told 1 inserted live
  have first : 1 ∈ dir.activeEntries := by
    rw [active]
    exact List.mem_singleton_self 1
  exact ⟨_, _, dir, session, here, scanning, first, since, begin, earlier, split,
    generation ▸ begun, confirmed.mp first⟩

/-- An entry is inserted in an update to generation 1, an update to generation 2 is begun within it,
    and then one to generation 1 again. -/
def Request.again : List Request :=
  [⟨none, .create 0 none⟩, ⟨none, .within 0 (.beginUpdate .exclusive 1)⟩,
    ⟨none, .within 0 (.insert "k" [1] [2])⟩, ⟨none, .within 0 (.beginUpdate .exclusive 2)⟩,
    ⟨none, .within 0 (.beginUpdate .exclusive 1)⟩]

/-- The entry is stale then and looks as if it had been confirmed: the generation alone does not
    tell which entries are valid. -/
theorem Session.validity_fails : ¬ ∀ past w d dir e, Session past w → w.directory? d = some dir →
    dir.status = .updating → e ∈ Deed.insertions (deedsOf past d) →
    (w.entries.entry e).live = true →
    ((w.entries.entry e).generation = dir.generation ↔ e ∈ dir.activeEntries) := by
  intro claim
  have session := Session.small.answers Request.again
  have found : ((World.small.answers Request.again).2.directory? 0).map (fun dir =>
      (dir.status, dir.generation, dir.activeEntries)) = some (.updating, 1, []) := by
    decide +kernel
  obtain ⟨dir, here, shown⟩ := Option.map_eq_some_iff.mp found
  obtain ⟨scanning, generation, active⟩ : dir.status = .updating ∧ dir.generation = 1 ∧
      dir.activeEntries = [] := by simpa using shown
  have inserted : 0 ∈ Deed.insertions (deedsOf (World.small.moments [] Request.again) 0) := by
    decide +kernel
  have live : ((World.small.answers Request.again).2.entries.entry 0).live = true := by
    decide +kernel
  have stamp : ((World.small.answers Request.again).2.entries.entry 0).generation = 1 := by
    decide +kernel
  have valid := (claim _ _ 0 dir 0 session here scanning inserted live).mp
    (stamp.trans generation.symm)
  rw [active] at valid
  exact absurd valid List.not_mem_nil

end NameCache
