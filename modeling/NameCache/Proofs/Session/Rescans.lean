/-
  Scans of a directory that has no entries.

  Whatever emptied a directory, a purge or a scan that confirmed nothing, a scan to another
  generation fills it with what it sees: the directory is clean and has the generation of the scan,
  it has the pairs seen as its entries and no others, and every name seen can be looked up
  (`Session.rescan`).

  A purge keeps the generation, and beginning an update to the generation that a directory has
  already changes nothing.  So a scan to that generation enters its pairs outside an update, and
  leaves them stale (`Session.rescan_stale`).
-/
import NameCache.Proofs.Directory.Finding
import NameCache.Proofs.Directory.Rescanning
import NameCache.Proofs.Session.Refusals

namespace NameCache

variable {w : World} {past : List Moment} {dir : Directory} {d : Nat} {g : UInt64}
  {seen : List Sighting}

/-- Actions on directory `d`, as requests about it. -/
def Request.each (d : Nat) (actions : List Action) : List Request :=
  actions.map fun action => ⟨some d, .within d action⟩

/-- What a scan asks of directory `d`. -/
def Request.rescan (d : Nat) (hold : Hold) (g : UInt64) (seen : List Sighting) : List Request :=
  Request.each d (Action.rescan hold g seen)

/-- What a scan of an empty directory is to leave, if the next entry is to have number `next`. -/
structure World.Rescanned (w : World) (next d : Nat) (g : UInt64) (seen : List Sighting) :
    Prop where
  /-- The directory is clean, has the generation, and has what was seen as its entries. -/
  left : ∃ dir, w.directory? d = some dir ∧ dir.status = .clean ∧ dir.generation = g ∧
    dir.activeEntries = (List.range' next seen.length).reverse ∧ dir.staleEntries = [] ∧
    ((List.range' next seen.length).map fun e => (w.entries.entry e).bare) =
      seen.map fun x => x.entry dir.id g
  /-- A lookup of a name that was seen is not refused and finds an entry of that name. -/
  found : ∀ x ∈ seen, ∃ e,
    (Request.answer ⟨some d, .within d (.lookupName x.name)⟩ w).1.reply =
      .ok (.found (some (e, w.entries.entry e))) ∧
    (w.entries.entry e).name = x.name

/-- Actions that are always accepted are answered, and done to the directory one by one. -/
theorem World.Sound.answers_each (sound : w.Sound) (here : w.directory? d = some dir)
    (actions : List Action) (welcome : ∀ action ∈ actions, ∀ l : Ledger, l.Accepts action) :
    (∀ a ∈ (w.answers (Request.each d actions)).1, ∃ reply, a.reply = .ok reply) ∧
    (w.answers (Request.each d actions)).2.Sound ∧
    (w.answers (Request.each d actions)).2.directory? d =
      some ((w.opened dir).acting actions).dir ∧
    (w.answers (Request.each d actions)).2.opened ((w.opened dir).acting actions).dir =
      (w.opened dir).acting actions := by
  induction actions generalizing w dir with
  | nil => exact ⟨fun a ha => absurd ha List.not_mem_nil, sound, here, rfl⟩
  | cons action rest ih =>
    obtain ⟨accepted, others⟩ := List.forall_mem_cons.mp welcome
    have heard : (⟨w, ⟨some d, .within d action⟩⟩ : Moment).heard = true := by
      rw [Moment.heard, Option.all_some, here]
      rfl
    -- an action that is always accepted confirms no entry
    have known : ∀ e, action = .update e → e < w.entries.size := by
      rintro e rfl
      exact absurd (accepted ⟨0, 0, false, [], [], #[], {}, []⟩) (by
        rintro (h | h)
        · exact List.not_mem_nil h
        · exact List.not_mem_nil h)
    obtain ⟨sound₁, leads⟩ := Deed.leads ⟨w.opened dir, action⟩ (sound.hosts.opened here)
    have after := Moment.after_within ⟨w, ⟨some d, .within d action⟩⟩ heard rfl here known
    replace after : (Request.answer ⟨some d, .within d action⟩ w).2 =
      w.put d (Deed.after ⟨w.opened dir, action⟩) := after
    obtain ⟨there, opened⟩ := sound.opened_put here leads
    have left := ih (sound.put here sound₁ leads) there others
    rw [opened, ← after] at left
    obtain ⟨answered, rest_left⟩ := left
    refine ⟨List.forall_mem_cons.mpr ⟨?_, answered⟩, rest_left⟩
    rcases Moment.answers_within ⟨w, ⟨some d, .within d action⟩⟩ sound heard rfl here known with
      ⟨-, reply⟩ | ⟨refuses, -⟩
    · exact reply
    · exact absurd (accepted _) refuses

/-- The actions of a scan are always accepted. -/
theorem Action.rescan_welcome (hold : Hold) (g : UInt64) (fits : ∀ x ∈ seen, x.Fits) :
    ∀ action ∈ Action.rescan hold g seen, ∀ l : Ledger, l.Accepts action := by
  intro action ha l
  rw [Action.rescan, List.mem_cons, List.mem_append, List.mem_singleton] at ha
  rcases ha with rfl | ha | rfl
  · trivial
  · obtain ⟨x, hx, rfl⟩ := List.mem_map.mp ha
    exact fits x hx
  · trivial

/-- In a clean directory every active entry's name is found. -/
theorem World.Sound.finds_active (sound : w.Sound) (here : w.directory? d = some dir)
    (clean : dir.status = .clean) {e : Nat} (active : e ∈ dir.activeEntries) :
    ∃ f, (Request.answer ⟨some d, .within d (.lookupName (w.entries.entry e).name)⟩ w).1.reply =
        .ok (.found (some (f, w.entries.entry f))) ∧
      (w.entries.entry f).name = (w.entries.entry e).name := by
  have opened := sound.hosts.opened here
  obtain ⟨idle, none_stale⟩ := opened.standing.status_clean.mp clean
  obtain ⟨f, found, same⟩ := Opened.findName_of_holds opened (.inl active) (opened.current active)
  refine ⟨f, ?_, same⟩
  have run := Opened.lookupName_run opened.standing idle none_stale (w.entries.entry e).name
  have heard : (⟨w, ⟨some d, .within d (.lookupName (w.entries.entry e).name)⟩⟩ : Moment).heard =
      true := by
    rw [Moment.heard, Option.all_some, here]
    rfl
  replace found : (w.opened dir).findName (w.entries.entry e).name = some f := found
  rw [found] at run
  exact Moment.reply_of_run ⟨w, ⟨some d, .within d (.lookupName (w.entries.entry e).name)⟩⟩
    heard rfl here (by simp) (Step.bind_of_ok run)

/-- A directory that shows the pairs seen, and is not being scanned any more. -/
theorem World.Sound.rescanned (sound : w.Sound) (here : w.directory? d = some dir)
    (idle : dir.updating = false) {next : Nat} (shows : (w.opened dir).ledger.Shows g next seen) :
    w.Rescanned next d g seen := by
  have clean : dir.status = .clean :=
    (sound.hosts.opened here).standing.status_clean.mpr ⟨idle, shows.stale⟩
  have entries : ((List.range' next seen.length).map fun e => (w.entries.entry e).bare) =
      seen.map fun x => x.entry dir.id g := by
    rw [← show _ = seen.map fun x => x.entry dir.id g from shows.entries]
    exact List.map_congr_left fun e _ => Entries.entry_map_bare.symm
  refine ⟨⟨dir, here, clean, shows.generation, shows.active, shows.stale, entries⟩,
    fun x hx => ?_⟩
  -- the entry made of the pair is active, so its name is found
  have made : x.entry dir.id g ∈ seen.map fun x => x.entry dir.id g := List.mem_map_of_mem hx
  rw [← entries] at made
  obtain ⟨e, he, bare⟩ := List.mem_map.mp made
  have active : e ∈ dir.activeEntries := by
    rw [show dir.activeEntries = _ from shows.active, List.mem_reverse]
    exact he
  have name : (w.entries.entry e).name = x.name := congrArg Entry.name bare
  rw [← name]
  exact sound.finds_active here clean active

/-- A directory that has no entries has none on either list. -/
theorem World.Sound.lists_eq_nil (sound : w.Sound) (here : w.directory? d = some dir)
    (empty : dir.length = 0) : dir.activeEntries = [] ∧ dir.staleEntries = [] := by
  have total : dir.length = dir.activeEntries.length + dir.staleEntries.length :=
    (sound.hosts.standing d dir here).length_eq
  exact ⟨List.length_eq_zero_iff.mp (by omega), List.length_eq_zero_iff.mp (by omega)⟩

/-- In every session a scan fills an empty directory with what it sees, if it is to a generation
    other than the present one, or if it sees nothing. -/
theorem Session.rescan (session : Session past w) (here : w.directory? d = some dir)
    (empty : dir.length = 0) (some_generation : g ≠ 0) (hold : Hold) (fits : ∀ x ∈ seen, x.Fits)
    (anew : g ≠ dir.generation ∨ seen = []) :
    (∀ a ∈ (w.answers (Request.rescan d hold g seen)).1, ∃ reply, a.reply = .ok reply) ∧
      (w.answers (Request.rescan d hold g seen)).2.Rescanned w.entries.size d g seen := by
  have sound := session.sound
  obtain ⟨none_active, none_stale⟩ := sound.lists_eq_nil here empty
  obtain ⟨answered, sound', there, left⟩ := sound.answers_each here
    (Action.rescan hold g seen) (Action.rescan_welcome hold g fits)
  obtain ⟨idle, shows⟩ := Opened.rescanned (sound.hosts.opened here) none_active none_stale hold
    fits some_generation anew
  refine ⟨answered, sound'.rescanned there idle ?_⟩
  rw [left]
  exact shows

/-- A scan to the present generation that sees anything leaves an empty directory inconsistent. -/
theorem Session.rescan_stale (session : Session past w) (here : w.directory? d = some dir)
    (idle : dir.status ≠ .updating) (some_generation : dir.generation ≠ 0) (hold : Hold)
    (fits : ∀ x ∈ seen, x.Fits) (some_seen : seen ≠ []) :
    ∃ dir', (w.answers (Request.rescan d hold dir.generation seen)).2.directory? d = some dir' ∧
      dir'.status = .inconsistent := by
  have sound := session.sound
  have not_updating : dir.updating = false :=
    Bool.eq_false_iff.mpr fun h => idle (Directory.status_updating.mpr h)
  obtain ⟨-, sound', there, left⟩ := sound.answers_each here
    (Action.rescan hold dir.generation seen) (Action.rescan_welcome hold dir.generation fits)
  have stray := Opened.rescanned_present (sound.hosts.opened here) not_updating hold fits
    some_generation some_seen
  exact ⟨_, there, (sound'.hosts.opened there).standing.status_inconsistent.mpr stray⟩

/-- A scan to generation 7, and a purge. -/
def Request.purged : List Request := Request.scan ++ [⟨none, .within 0 .purge⟩]

/-- Three pairs, two of them of one name. -/
def Sighting.three : List Sighting := [⟨"k", [5], [6]⟩, ⟨"l", [7], [8]⟩, ⟨"m", [5], [9]⟩]

/-- After that a scan to generation 8 fills the directory with what it sees. -/
theorem Session.rescan_after_purge : ∃ past w, Session past w ∧
    (w.answers (Request.rescan 0 .exclusive 8 Sighting.three)).2.Rescanned 2 0 8
      Sighting.three := by
  have session := Session.small.answers Request.purged
  have found : ((World.small.answers Request.purged).2.directory? 0).map
      (fun dir => (dir.length, dir.generation)) = some (0, 7) := by
    decide +kernel
  obtain ⟨dir, here, shown⟩ := Option.map_eq_some_iff.mp found
  obtain ⟨empty, generation⟩ := Prod.mk.inj shown
  have size : (World.small.answers Request.purged).2.entries.size = 2 := by decide +kernel
  have left := (Session.rescan session here empty (g := 8) (by decide) .exclusive
    (show ∀ x ∈ Sighting.three, x.Fits by decide)
    (.inl (by rw [generation]; decide))).2
  rw [size] at left
  exact ⟨_, _, session, left⟩

/-- A scan to generation 7 does not. -/
theorem Session.rescan_to_present_fails : ∃ past w dir, Session past w ∧
    w.directory? 0 = some dir ∧ dir.status ≠ .updating ∧ dir.length = 0 ∧ (7 : UInt64) ≠ 0 ∧
    Sighting.Fits ⟨"k", [5], [6]⟩ ∧
    ¬ (w.answers (Request.rescan 0 .exclusive 7 [⟨"k", [5], [6]⟩])).2.Rescanned w.entries.size 0 7
      [⟨"k", [5], [6]⟩] := by
  have session := Session.small.answers Request.purged
  have found : ((World.small.answers Request.purged).2.directory? 0).map
      (fun dir => (dir.status, dir.length)) = some (.clean, 0) := by
    decide +kernel
  obtain ⟨dir, here, shown⟩ := Option.map_eq_some_iff.mp found
  obtain ⟨clean, empty⟩ := Prod.mk.inj shown
  refine ⟨_, _, dir, session, here, by rw [clean]; decide, empty, by decide, by decide, ?_⟩
  rintro ⟨⟨dir', there, status, -⟩, -⟩
  have left : (((World.small.answers Request.purged).2.answers
      (Request.rescan 0 .exclusive 7 [⟨"k", [5], [6]⟩])).2.directory? 0).map (·.status) =
        some .inconsistent := by
    decide +kernel
  rw [there] at left
  exact absurd (status.symm.trans (Option.some.inj left)) (by decide)

end NameCache
