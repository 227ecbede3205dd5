/-
  What the status and the generation of a directory tell.

  The code asserts parts of this and its callers rely on the rest: a clean directory of a generation
  is what the last scan found, because nothing that could have put it in doubt has happened since
  (`Session.generations`).  The clauses about one state come from `Ledger.Sound`, the one about the
  past from the course of the directory.
-/
import NameCache.Proofs.Directory.Brackets
import NameCache.Proofs.Session.Courses

namespace NameCache

variable {w : World} {past : List Moment} {dir : Directory} {d : Nat}

/-- Outside an update one of the lists is empty; active entries have the generation of their
    directory; a directory in doubt has none, one that is being updated has one, and a clean one
    that has one has it from the last update begun, which was finished and not disturbed since. -/
theorem Session.generations (session : Session past w) (here : w.directory? d = some dir) :
    (dir.status ≠ .updating → dir.lists.values 0 = [] ∨ dir.lists.values 1 = []) ∧
    (∀ e ∈ dir.activeEntries, (w.entries.entry e).generation = dir.generation) ∧
    (dir.status = .clean → ∀ e l, e ∈ dir.lists.values l →
      (w.entries.entry e).generation = dir.generation) ∧
    (dir.status = .inconsistent → dir.generation = 0) ∧
    (dir.status = .updating → dir.generation ≠ 0) ∧
    (dir.status = .clean → dir.generation ≠ 0 → ∃ since begin earlier,
      deedsOf past d = since ++ begin :: earlier ∧ begin.begun = some dir.generation ∧
      (∃ deed ∈ since, deed.ends = true) ∧
      ∀ deed ∈ since, deed.begun = none ∧ deed.aborts = false ∧ deed.strays = false) := by
  have opened := session.sound.hosts.opened here
  have ledger := opened.ledger
  have current : ∀ e ∈ dir.activeEntries, (w.entries.entry e).generation = dir.generation :=
    fun e he => opened.current he
  refine ⟨fun idle => ?_, current, fun clean e l he => ?_, fun doubt => ?_, fun scanning => ?_,
    fun clean some_generation => ?_⟩
  · have not_updating : dir.updating = false :=
      Bool.eq_false_iff.mpr fun h => idle (Directory.status_updating.mpr h)
    have one_list : dir.lists.values dir.active.list = [] ∨
        dir.lists.values dir.active.other.list = [] := ledger.one_list not_updating
    -- either of the physical lists may be the active one
    cases side : dir.active with
    | a =>
      rw [side] at one_list
      exact one_list
    | b =>
      rw [side] at one_list
      exact one_list.symm
  · obtain ⟨-, none_stale⟩ := opened.standing.status_clean.mp clean
    obtain ⟨n, hm⟩ := SlotLists.mem_values.mp he
    rcases Opened.holds_of_mem (s := w.opened dir) opened.standing hm with active | stale
    · exact current e active
    · exact absurd (none_stale ▸ stale) List.not_mem_nil
  · obtain ⟨idle, pending⟩ := opened.standing.status_inconsistent.mp doubt
    exact ledger.doubt idle pending
  · exact ledger.scan (Directory.status_updating.mp scanning)
  · obtain ⟨since, begin, earlier, split, begun, calm, finished⟩ :=
      (session.course here).generation some_generation
    obtain ⟨idle, -⟩ := opened.standing.status_clean.mp clean
    exact ⟨since, begin, earlier, split, begun, finished idle, calm⟩

/-- After a scan a directory is clean and has the generation of the scan. -/
theorem Session.generations_after_scan : ∃ past w dir, Session past w ∧
    w.directory? 0 = some dir ∧ dir.generation = 7 ∧
    ∃ since begin earlier, deedsOf past 0 = since ++ begin :: earlier ∧ begin.begun = some 7 ∧
      ∃ deed ∈ since, deed.ends = true := by
  have session := Session.small.answers Request.scan
  obtain ⟨dir, here⟩ := Option.isSome_iff_exists.mp
    (show ((World.small.answers Request.scan).2.directory? 0).isSome = true by decide +kernel)
  have found : ((World.small.answers Request.scan).2.directory? 0).map (fun dir =>
      (dir.status, dir.generation)) = some (.clean, 7) := by
    decide +kernel
  rw [here] at found
  obtain ⟨clean, generation⟩ : dir.status = .clean ∧ dir.generation = 7 := by simpa using found
  obtain ⟨-, -, -, -, -, told⟩ := Session.generations session here
  obtain ⟨since, begin, earlier, split, begun, finished, -⟩ :=
    told clean (by rw [generation]; decide)
  exact ⟨_, _, dir, session, here, generation, since, begin, earlier, split, generation ▸ begun,
    finished⟩

end NameCache
