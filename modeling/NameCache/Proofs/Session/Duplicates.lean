/-
  Which of several entries of one name a lookup finds.

  A name may be inserted again while an entry of it is live.  The lookup goes through a bucket, and a
  bucket is in the order of insertions and stays so: a confirmation moves an entry to the front of
  the active list, but nowhere in its bucket.  So the lookup finds the entry that was inserted last,
  whichever was confirmed last (`Session.duplicates`).

  The active list has the one touched last in front, and the two agree on a name exactly if that
  entry is also the latest one.  They do not once a scan sees a later entry of the name before an
  earlier one (`Session.duplicates_fail`).
-/
import NameCache.Proofs.Session.Lookups

namespace NameCache

variable {w : World} {past : List Moment} {dir : Directory} {d : Nat} {r : Request}

/-- The first entry of interest in a descending list is the greatest of them. -/
theorem find?_eq_max? {l picked : List Nat} {p : Nat → Bool} (sorted : l.Pairwise (· > ·))
    (same : ∀ e, e ∈ picked ↔ e ∈ l ∧ p e = true) : l.find? p = picked.max? := by
  cases first : l.find? p with
  | none =>
    have nothing : picked = [] := by
      refine List.eq_nil_iff_forall_not_mem.mpr fun e he => ?_
      obtain ⟨listed, wanted⟩ := (same e).mp he
      exact List.find?_eq_none.mp first e listed wanted
    rw [nothing]
    rfl
  | some e =>
    obtain ⟨wanted, before, after, rfl, unwanted⟩ := List.find?_eq_some_iff_append.mp first
    refine (List.max?_eq_some_iff.mpr ⟨?_, fun f hf => ?_⟩).symm
    · exact (same e).mpr ⟨List.mem_append_right _ (List.mem_cons_self ..), wanted⟩
    · obtain ⟨listed, wanted'⟩ := (same f).mp hf
      rcases List.mem_append.mp listed with early | late
      · -- what stands before the first one is not of interest
        have off := unwanted f early
        rw [wanted'] at off
        exact absurd off (by decide)
      · rcases List.mem_cons.mp late with rfl | later
        · exact Nat.le_refl _
        · have tail := (List.pairwise_append.mp sorted).2.1
          exact Nat.le_of_lt ((List.pairwise_cons.mp tail).1 f later)

namespace World

/-- The active entries of a name, the one last inserted or confirmed first. -/
def namesakes (w : World) (dir : Directory) (name : Bytes) : List Nat :=
  dir.activeEntries.filter fun e => (w.entries.entry e).name == name

end World

/-- In a clean directory the latest insertion of a name that is still live is the greatest of the
    active entries of that name. -/
theorem Session.latest_eq_max (session : Session past w) (here : w.directory? d = some dir)
    (clean : dir.status = .clean) (name : Bytes) :
    (w.latest past d .plain name).map (·.entry) = (w.namesakes dir name).max? := by
  have course := session.course here
  have opened := session.sound.hosts.opened here
  have none_stale : dir.staleEntries = [] := (opened.standing.status_clean.mp clean).2
  have active : ∀ e, e ∈ dir.activeEntries ↔
      e ∈ Deed.insertions (deedsOf past d) ∧ (w.entries.entry e).live = true := by
    intro e
    refine Iff.trans ⟨.inl, fun held => held.resolve_right fun stale => ?_⟩ course.holds_iff
    replace stale : e ∈ dir.staleEntries := stale
    rw [none_stale] at stale
    exact List.not_mem_nil stale
  refine (Opened.find_records course .plain name).symm.trans ?_
  refine find?_eq_max? course.insertions_sorted fun e => ?_
  rw [World.namesakes, List.mem_filter, active, and_assoc, ← Bool.and_eq_true]
  rfl

/-- In every session, a lookup of a plain name in a clean directory, if no other one on its pool has
    its number, finds the active entry of that name that was inserted last.  That is the first one
    on the active list exactly if no entry of the name was inserted after it. -/
theorem Session.duplicates (session : Session past w) (here : w.directory? d = some dir)
    (unmistaken : ∀ d' dir', w.directory? d' = some dir' → dir'.pool = dir.pool →
      dir'.id = dir.id → d' = d)
    (clean : dir.status = .clean)
    (heard : ∀ d', r.about = some d' → (w.directory? d').isSome = true) {name : Bytes}
    (command : r.command = .within d (.lookupName name)) :
    (r.answer w).1.reply = .ok (.found ((w.namesakes dir name).max?.map w.shown)) ∧
    (w.namesakes dir name).max? = ((Deed.insertions (deedsOf past d)).find? fun e =>
      (w.entries.entry e).live && (w.entries.entry e).name == name) ∧
    ((r.answer w).1.reply = .ok (.found ((w.namesakes dir name).head?.map w.shown)) ↔
      ∀ first ∈ (w.namesakes dir name).head?, ∀ e ∈ w.namesakes dir name, e ≤ first) := by
  have course := session.course here
  have opened := session.sound.hosts.opened here
  have there : (⟨w, r⟩ : Moment).heard = true := by
    rw [Moment.heard, Option.all_eq_true]
    exact heard
  obtain ⟨idle, none_stale⟩ := opened.standing.status_clean.mp clean
  have run := Opened.lookupName_run opened.standing idle none_stale name
  rw [Opened.findName_eq course opened (session.sound.strange unmistaken) none_stale name] at run
  have finds : w.Finds dir r .plain name (w.latest past d .plain name) :=
    session.finds here there command (.inl ⟨name, rfl⟩) (Step.bind_of_ok run)
  have latest := session.latest_eq_max here clean name
  have reply : (r.answer w).1.reply =
      .ok (.found ((w.namesakes dir name).max?.map w.shown)) := by
    rw [← latest, Option.map_map]
    exact finds.reply
  refine ⟨reply, ?_, ?_⟩
  · rw [← latest]
    exact (Opened.find_records course .plain name).symm
  · rw [reply]
    -- an entry is shown under its number, so the same is shown only if it is the same entry
    have shown : Function.Injective w.shown := fun e f same => congrArg Prod.fst same
    constructor
    · intro agree first front e he
      have same := (Option.map_injective shown) (Reply.found.inj (Except.ok.inj agree))
      rw [Option.mem_def.mp front] at same
      exact (List.max?_eq_some_iff.mp same).2 e he
    · intro latest_first
      cases order : w.namesakes dir name with
      | nil => rfl
      | cons first rest =>
        rw [order] at latest_first
        have greatest : (first :: rest).max? = some first :=
          List.max?_eq_some_iff.mpr ⟨List.mem_cons_self .., latest_first first rfl⟩
        rw [greatest]
        rfl

/-- Two entries of one name are inserted, and a scan sees the later one and then the earlier one. -/
def Request.twice : List Request :=
  [⟨none, .create 0 none⟩, ⟨none, .within 0 (.insert "k" [1] [2])⟩,
    ⟨none, .within 0 (.insert "k" [1] [3])⟩, ⟨none, .within 0 (.beginUpdate .exclusive 7)⟩,
    ⟨none, .within 0 (.update 1)⟩, ⟨none, .within 0 (.update 0)⟩, ⟨none, .within 0 .endUpdate⟩]

theorem World.apart_twice : (World.small.answers Request.twice).2.Apart := by
  intro d d' dir dir' here there _ _
  have one : (World.small.answers Request.twice).2.directories.size = 1 := by decide +kernel
  have first := World.lt_of_directory? here
  have second := World.lt_of_directory? there
  omega

theorem World.shown_twice : ((World.small.answers Request.twice).2.directory? 0).map
    (fun dir => (dir.status, dir.activeEntries)) = some (.clean, [0, 1]) := by
  decide +kernel

/-- The lookup finds the later one. -/
theorem Session.duplicates_after_scan : ∃ past w dir, Session past w ∧
    w.directory? 0 = some dir ∧ dir.activeEntries = [0, 1] ∧
    (Request.answer ⟨none, .within 0 (.lookupName [1])⟩ w).1.reply =
      .ok (.found (some (w.shown 1))) := by
  have session := Session.small.answers Request.twice
  obtain ⟨dir, here, shown⟩ := Option.map_eq_some_iff.mp World.shown_twice
  obtain ⟨clean, active⟩ := Prod.mk.inj shown
  have found := (Session.duplicates session here (World.apart_twice.unmistaken here) clean
    (r := ⟨none, .within 0 (.lookupName [1])⟩) (by simp) rfl).1
  have greatest : ((World.small.answers Request.twice).2.namesakes dir [1]).max? = some 1 := by
    rw [World.namesakes, active]
    decide +kernel
  rw [greatest] at found
  exact ⟨_, _, dir, session, here, active, found⟩

/-- It does not find the one that was confirmed last. -/
theorem Session.duplicates_fail : ¬ ∀ past w d dir name, Session past w → w.Apart →
    w.directory? d = some dir → dir.status = .clean →
    (Request.answer ⟨some d, .within d (.lookupName name)⟩ w).1.reply =
      .ok (.found ((dir.activeEntries.find? fun e => (w.entries.entry e).name == name).map
        w.shown)) := by
  intro claim
  have session := Session.small.answers Request.twice
  obtain ⟨dir, here, shown⟩ := Option.map_eq_some_iff.mp World.shown_twice
  obtain ⟨clean, active⟩ := Prod.mk.inj shown
  have found := claim _ _ 0 dir [1] session World.apart_twice here clean
  rw [active] at found
  exact absurd (congrArg Except.toOption found) (by decide +kernel)

end NameCache
