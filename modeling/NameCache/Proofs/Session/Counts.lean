/-
  The counters tell the truth.

  Three countings that know nothing of each other agree after every request of every session, for
  every manager and modulo 2^64 (`Session.truthful`): the counters of the manager, the lengths of
  its directories that exist, and what a list of all its directories' deeds says was inserted and
  looked up.  The tables of each pool are as long as the directories on it have entries, whoever
  made them.

  The crux is `Command.Passage.counts`, one step: by how much the counters move, and that the census
  of the manager's directories moves by what was inserted less what the counters say was destroyed.
  That these are the entries without a key follows once, at the end: what was inserted and is live
  is what the directories hold.
-/
import NameCache.Proofs.Directory.Counters
import NameCache.Proofs.Places
import NameCache.Proofs.Session.Fates
import NameCache.Proofs.World.Census

namespace NameCache

open Step

variable {w w' w'' : World} {past : List Moment} {dir : Directory} {d e m : Nat} {c : Command}
  {deeds : List Deed} {deed : Deed} {s s' : Opened} {others : Nat → Prop}

/-! ## The deeds on the directories of a manager -/

/-- What a command does to the directories of manager `m`. -/
def Command.deedsBy (w : World) (m : Nat) (c : Command) : List Deed :=
  (List.range w.directories.size).flatMap fun d =>
    (c.deeds w d).filter (·.before.dir.manager == m)

/-- What a moment did to the directories of manager `m`, the latest first. -/
def Moment.deedsBy (x : Moment) (m : Nat) : List Deed :=
  (List.range x.before.directories.size).flatMap fun d =>
    (x.deeds d).filter (·.before.dir.manager == m)

/-- What was done to the directories of manager `m`, the latest first. -/
def deedsBy (past : List Moment) (m : Nat) : List Deed := past.flatMap (·.deedsBy m)

/-- These are the deeds on any directory that the manager has made. -/
theorem mem_deedsBy : deed ∈ deedsBy past m ↔
    (∃ d, deed ∈ deedsOf past d) ∧ deed.before.dir.manager = m := by
  constructor
  · intro was
    obtain ⟨x, here, was⟩ := List.mem_flatMap.mp was
    obtain ⟨d, -, was⟩ := List.mem_flatMap.mp was
    obtain ⟨was, manager⟩ := List.mem_filter.mp was
    exact ⟨⟨d, List.mem_flatMap.mpr ⟨x, here, was⟩⟩, beq_iff_eq.mp manager⟩
  · rintro ⟨⟨d, was⟩, manager⟩
    obtain ⟨x, here, was⟩ := List.mem_flatMap.mp was
    have known : d < x.before.directories.size := by
      cases there : x.before.directory? d with
      | some dir => exact World.lt_of_directory? there
      | none =>
        rw [x.deeds_eq_nil there] at was
        exact absurd was List.not_mem_nil
    exact List.mem_flatMap.mpr ⟨x, here, List.mem_flatMap.mpr ⟨d, List.mem_range.mpr known,
      List.mem_filter.mpr ⟨was, beq_iff_eq.mpr manager⟩⟩⟩

/-- Deeds leave a directory to its manager. -/
theorem Chain.same_manager (chain : Chain s deeds s') (sound : s.Sound others) :
    ∀ deed ∈ deeds, deed.before.dir.manager = s.dir.manager := by
  induction chain with
  | nil => exact fun _ was => absurd was List.not_mem_nil
  | cons action chain ih =>
    exact List.forall_mem_cons.mpr ⟨(chain.leads sound).2.manager, ih⟩

theorem Opened.Course.same_manager (course : Opened.Course deeds s) :
    ∀ deed ∈ deeds, deed.before.dir.manager = s.dir.manager := by
  induction course with
  | fresh => exact fun _ was => absurd was List.not_mem_nil
  | @act deeds s₁ action before ih =>
    obtain ⟨others, sound⟩ := before.sound
    have kept : (Deed.after ⟨s₁, action⟩).dir.manager = s₁.dir.manager :=
      (Deed.leads ⟨s₁, action⟩ sound).2.manager
    rw [kept]
    exact List.forall_mem_cons.mpr ⟨rfl, ih⟩
  | rest _ rests _ ih =>
    rw [rests.dir]
    exact ih

theorem Command.deedsBy_of_idle (none : ∀ d, c.deeds w d = []) : c.deedsBy w m = [] := by
  refine List.flatMap_eq_nil_iff.mpr fun d _ => ?_
  rw [none, List.filter_nil]

/-- If only one directory is worked on, its manager is the one whose deeds these are. -/
theorem Command.deedsBy_of_worked (sound : w.Sound) (here : w.directory? d = some dir)
    (chain : Chain (w.opened dir) (c.deeds w d) s) (others : ∀ d', d' ≠ d → c.deeds w d' = []) :
    c.deedsBy w m = if dir.manager = m then c.deeds w d else [] := by
  have manager := chain.same_manager (sound.hosts.opened here)
  rw [deedsBy, flatMap_range_single (World.lt_of_directory? here) fun d' _ ne => by
    rw [others d' ne, List.filter_nil]]
  split
  case isTrue mine =>
    exact List.filter_eq_self.mpr fun deed was => beq_iff_eq.mpr ((manager deed was).trans mine)
  case isFalse other =>
    refine List.filter_eq_nil_iff.mpr fun deed was same => other ?_
    exact (manager deed was).symm.trans (beq_iff_eq.mp same)

/-! ## What one request adds -/

namespace World

/-- Some deeds have moved the counters of manager `m`, and the census of its directories by what was
    inserted less what the counters say was destroyed. -/
def Moved (w w' : World) (m : Nat) (deeds : List Deed) : Prop :=
  ∃ freed, Deed.Counts deeds freed (w.tally m) (w'.tally m) ∧
    w'.census (·.manager == m) + freed =
      w.census (·.manager == m) + (Deed.insertions deeds).length

theorem Moved.none (tally : w'.tally m = w.tally m)
    (census : w'.census (·.manager == m) = w.census (·.manager == m)) : w.Moved w' m [] := by
  refine ⟨0, ?_, census⟩
  rw [tally]
  exact .refl _

theorem Moved.trans {more : List Deed} (earlier : w.Moved w' m deeds)
    (later : w'.Moved w'' m more) : w.Moved w'' m (more ++ deeds) := by
  obtain ⟨freed, counts, census⟩ := earlier
  obtain ⟨freed', counts', census'⟩ := later
  refine ⟨freed + freed', counts.append counts', ?_⟩
  rw [Deed.insertions_append, List.length_append]
  omega

/-- Work on a directory moves what its manager has, and nothing of another manager. -/
theorem moved_put (sound : w.Sound) (here : w.directory? d = some dir)
    (chain : Chain (w.opened dir) deeds s) (m : Nat) :
    w.Moved (w.put d s) m (if dir.manager = m then deeds else []) := by
  have opened := sound.hosts.opened here
  have manager : s.dir.manager = dir.manager := (chain.leads opened).2.manager
  have tally : (w.put d s).tally m = if m = s.dir.manager then s.tally else w.tally m :=
    tally_closed s (manager ▸ sound.hosts.manager_lt d dir here) m
  have census : (w.put d s).census (·.manager == m) + share (·.manager == m) (w.directory? d) =
      w.census (·.manager == m) + share (·.manager == m) (some s.dir) :=
    census_set (lt_of_directory? here) Array.size_setIfInBounds (directory?_put here)
  rw [here] at census
  simp only [share_some, beq_iff_eq, manager] at census
  rw [manager] at tally
  by_cases mine : dir.manager = m
  · subst mine
    obtain ⟨freed, counts, lengths⟩ := chain.counts opened
    rw [if_pos rfl, if_pos rfl] at census
    rw [if_pos rfl] at tally ⊢
    replace lengths : s.dir.length + freed = dir.length + (Deed.insertions deeds).length := lengths
    refine ⟨freed, ?_, by omega⟩
    rw [tally]
    exact counts
  · rw [if_neg mine, if_neg mine] at census
    rw [if_neg fun h => mine h.symm] at tally
    rw [if_neg mine]
    exact .none tally census

/-- So does the purge of a directory that goes. -/
theorem moved_without (sound : w.Sound) (here : w.directory? d = some dir)
    (leads : (w.opened dir).Leads s) (purged : s.ledger = (w.opened dir).ledger.purge) (m : Nat) :
    w.Moved (w.without d s) m [] := by
  have manager : s.dir.manager = dir.manager := leads.manager
  have tally : (w.without d s).tally m = if m = s.dir.manager then s.tally else w.tally m :=
    tally_closed s (manager ▸ sound.hosts.manager_lt d dir here) m
  have census : (w.without d s).census (·.manager == m) + share (·.manager == m) (w.directory? d) =
      w.census (·.manager == m) :=
    census_set (lt_of_directory? here) Array.size_setIfInBounds (directory?_without here)
  rw [here] at census
  simp only [share_some, beq_iff_eq] at census
  rw [manager] at tally
  by_cases mine : dir.manager = m
  · subst mine
    have counted : s.tally = (w.tally dir.manager).addFrees dir.length := by
      have purges := congrArg Ledger.tally purged
      rw [Ledger.purge_eq, Ledger.tally_dropAll, List.length_append, Nat.add_comm] at purges
      rw [(sound.hosts.standing d dir here).length_eq]
      exact purges
    rw [if_pos rfl] at census
    rw [if_pos rfl, counted] at tally
    refine ⟨dir.length, ?_, census⟩
    rw [tally]
    exact .of_frees _ _
  · rw [if_neg mine] at census
    rw [if_neg fun h => mine h.symm] at tally
    exact .none tally census

end World

/-- A command moves the counters of each manager by what it does to the manager's directories. -/
theorem Command.Passage.moved (passage : c.Passage w w') (sound : w.Sound) (m : Nat) :
    w.Moved w' m (c.deedsBy w m) := by
  cases passage with
  | quiet quiet none =>
    rw [deedsBy_of_idle none]
    exact .none (quiet.tally m) (World.census_congr quiet.directories)
  | taken _ _ _ none =>
    rw [deedsBy_of_idle none]
    exact .none rfl rfl
  | given _ _ none =>
    rw [deedsBy_of_idle none]
    exact .none rfl rfl
  | @made w₁ new quiet blank _ _ none =>
    rw [deedsBy_of_idle none]
    have nothing : World.share (·.manager == m) (some new) = 0 := by
      have empty : new.length = 0 := by rw [Directory.length, blank.2.2]; rfl
      rw [World.share_some, empty, ite_self]
    refine .none (quiet.tally m) ?_
    rw [World.census_push (w := w₁) (Array.size_push _) (w₁.directory?_push new), nothing]
    exact World.census_congr quiet.directories
  | worked here chain others =>
    rw [deedsBy_of_worked sound here chain others]
    exact World.moved_put sound here chain m
  | gone here _ leads _ purged quiet _ none =>
    rw [deedsBy_of_idle none]
    have passed : World.Moved _ w' m [] :=
      .none (quiet.tally m) (World.census_congr quiet.directories)
    exact (World.moved_without sound here leads purged m).trans passed

theorem Moment.deedsBy_of_heard {x : Moment} (heard : x.heard = true) :
    x.deedsBy m = x.request.command.deedsBy x.before m := by
  rw [deedsBy, Command.deedsBy]
  refine congrArg (List.flatMap · _) (funext fun d => ?_)
  rw [deeds, if_pos heard]

theorem Moment.deedsBy_of_idle {x : Moment} (none : ∀ d, x.deeds d = []) : x.deedsBy m = [] := by
  refine List.flatMap_eq_nil_iff.mpr fun d _ => ?_
  rw [none, List.filter_nil]

theorem Moment.moved (x : Moment) (sound : x.before.Sound) (m : Nat) :
    x.before.Moved x.after m (x.deedsBy m) := by
  rcases x.passage sound with ⟨heard, passage⟩ | ⟨same, none⟩
  · rw [deedsBy_of_heard heard]
    exact passage.moved sound m
  · rw [deedsBy_of_idle none, same]
    exact .none rfl rfl

/-- Over a whole session the counters move by all the deeds on the manager's directories. -/
theorem Session.moved (session : Session past w) (m : Nat) :
    World.Moved {} w m (deedsBy past m) := by
  induction session using Session.steps with
  | start => exact .none rfl rfl
  | quiet _ _ quiet ih =>
    exact ih.trans (.none (quiet.tally m) (World.census_congr quiet.directories))
  | @request past w before r ih => exact ih.trans (Moment.moved ⟨w, r⟩ before.sound m)

/-! ## What was inserted -/

/-- What one request inserts is new. -/
theorem Command.Passage.insertions_new (passage : c.Passage w w') (sound : w.Sound) (m : Nat) :
    (Deed.insertions (c.deedsBy w m)).Pairwise (· > ·) ∧
      ∀ e ∈ Deed.insertions (c.deedsBy w m), w.entries.size ≤ e := by
  have idle : c.deedsBy w m = [] → (Deed.insertions (c.deedsBy w m)).Pairwise (· > ·) ∧
      ∀ e ∈ Deed.insertions (c.deedsBy w m), w.entries.size ≤ e := by
    intro none
    rw [none]
    exact ⟨.nil, fun e he => absurd he List.not_mem_nil⟩
  cases passage with
  | quiet _ none => exact idle (deedsBy_of_idle none)
  | taken _ _ _ none => exact idle (deedsBy_of_idle none)
  | given _ _ none => exact idle (deedsBy_of_idle none)
  | made _ _ _ _ none => exact idle (deedsBy_of_idle none)
  | worked here chain others =>
    have deeds := deedsBy_of_worked (m := m) sound here chain others
    obtain ⟨sorted, between⟩ := chain.insertions_new (sound.hosts.opened here)
    split at deeds
    · rw [deeds]
      exact ⟨sorted, fun e he => (between e he).1⟩
    · exact idle deeds
  | gone _ _ _ _ _ _ _ none => exact idle (deedsBy_of_idle none)

/-- No entry is inserted twice. -/
theorem Session.insertions_sorted (session : Session past w) (m : Nat) :
    (Deed.insertions (deedsBy past m)).Pairwise (· > ·) := by
  induction session using Session.steps with
  | start => exact .nil
  | quiet _ _ _ ih => exact ih
  | @request past w before r ih =>
    rw [deedsBy, List.flatMap_cons, Deed.insertions_append]
    rcases Moment.passage ⟨w, r⟩ before.sound with ⟨heard, passage⟩ | ⟨-, none⟩
    · rw [Moment.deedsBy_of_heard heard]
      obtain ⟨sorted, new⟩ := passage.insertions_new before.sound m
      refine List.pairwise_append.mpr ⟨sorted, ih, fun e he d old => ?_⟩
      obtain ⟨deed, was, inserted⟩ := List.mem_filterMap.mp old
      obtain ⟨⟨i, was⟩, -⟩ := mem_deedsBy.mp was
      have known := (before.fate (List.mem_filterMap.mpr ⟨deed, was, inserted⟩)).1
      exact Nat.lt_of_lt_of_le known (new e he)
    · rw [Moment.deedsBy_of_idle none]
      exact ih

/-- What was inserted through a manager's directories and is live is what they hold. -/
theorem Session.live_iff (session : Session past w) (m e : Nat) :
    (e ∈ Deed.insertions (deedsBy past m) ∧ (w.entries.entry e).live = true) ↔
      e ∈ w.holdings (·.manager == m) := by
  rw [World.mem_holdings]
  constructor
  · rintro ⟨he, live⟩
    obtain ⟨deed, was, inserted⟩ := List.mem_filterMap.mp he
    obtain ⟨⟨d, was⟩, manager⟩ := mem_deedsBy.mp was
    obtain ⟨-, ⟨dir, here, held⟩ | gone⟩ :=
      session.fate (List.mem_filterMap.mpr ⟨deed, was, inserted⟩)
    · have same := (session.course here).same_manager deed was
      exact ⟨d, dir, here, beq_iff_eq.mpr (same.symm.trans manager), held⟩
    · rw [gone.not_live] at live
      exact absurd live Bool.false_ne_true
  · rintro ⟨d, dir, here, picked, held⟩
    have course := session.course here
    obtain ⟨deed, was, inserted⟩ := List.mem_filterMap.mp (course.inserted held)
    have manager := (course.same_manager deed was).trans (beq_iff_eq.mp picked)
    refine ⟨List.mem_filterMap.mpr ⟨deed, mem_deedsBy.mpr ⟨⟨d, was⟩, manager⟩, inserted⟩, ?_⟩
    exact (session.sound.hosts.opened here).holds_live held

/-- So the census of a manager's directories counts what was inserted and is live. -/
theorem Session.census_eq (session : Session past w) (m : Nat) :
    w.census (·.manager == m) =
      (Deed.insertions (deedsBy past m)).countP fun e => (w.entries.entry e).live := by
  have nodup : (Deed.insertions (deedsBy past m)).Nodup :=
    (session.insertions_sorted m).imp fun gt => (Nat.ne_of_lt gt).symm
  have hosts := session.sound.hosts
  rw [← hosts.length_holdings, List.countP_eq_length_filter]
  refine ((List.perm_ext_iff_of_nodup (hosts.holdings_nodup _) (nodup.filter _)).mpr
    fun e => ?_).length_eq
  rw [List.mem_filter, session.live_iff]

/-! ## The truth -/

/-- In every session and for every manager, modulo 2^64: as many entries are counted as its
    directories that exist have together, as many insertions as it answered, as many destroyed
    entries as there are without a key among those inserted, and as many lookups as were not
    refused, those that found an entry apart; and each table of a pool is as long as the directories on it
    have entries, whoever made them. -/
theorem Session.truthful (session : Session past w) :
    (∀ m, (Deed.insertions (deedsBy past m)).Nodup ∧
      (w.tally m).entries = UInt64.ofNat (w.census (·.manager == m)) ∧
      (w.tally m).inserts = UInt64.ofNat (Deed.insertions (deedsBy past m)).length ∧
      (w.tally m).frees = UInt64.ofNat ((Deed.insertions (deedsBy past m)).countP fun e =>
        !(w.entries.entry e).live) ∧
      (w.tally m).entries = (w.tally m).inserts - (w.tally m).frees ∧
      (w.tally m).hits + (w.tally m).misses =
        UInt64.ofNat ((deedsBy past m).countP Deed.looksUp) ∧
      (w.tally m).hits = UInt64.ofNat ((deedsBy past m).countP Deed.finds)) ∧
    ∀ p, (w.pool p).names.length = w.census (·.pool == p) ∧
      (w.pool p).encnames.length = w.census (·.pool == p) := by
  have hosts := session.sound.hosts
  refine ⟨fun m => ?_, fun p => ⟨hosts.length_table p .plain, hosts.length_table p .encrypted⟩⟩
  obtain ⟨freed, counts, census⟩ := session.moved m
  obtain ⟨inserts, frees, entries, hits, misses⟩ := counts
  have zero : World.tally {} m = {} := rfl
  have none : World.census {} (·.manager == m) = 0 := rfl
  rw [zero] at inserts frees entries hits misses
  simp only [UInt64.zero_add] at inserts frees entries hits misses
  rw [none, Nat.zero_add] at census
  -- what is not live was destroyed
  have dead : freed = (Deed.insertions (deedsBy past m)).countP fun e =>
      !(w.entries.entry e).live := by
    have live := session.census_eq m
    have parts := List.length_eq_countP_add_countP (fun e => (w.entries.entry e).live)
      (l := Deed.insertions (deedsBy past m))
    simp only [Bool.not_eq_true, Bool.decide_eq_false] at parts
    omega
  have looks : (deedsBy past m).countP Deed.looksUp =
      (deedsBy past m).countP Deed.finds + (deedsBy past m).countP Deed.misses := by
    refine Deed.countP_looksUp fun deed was => ?_
    obtain ⟨⟨d, was⟩, -⟩ := mem_deedsBy.mp was
    exact session.deeds_sound deed was
  refine ⟨?_, ?_, inserts, ?_, ?_, ?_, hits⟩
  · exact (session.insertions_sorted m).imp fun gt => (Nat.ne_of_lt gt).symm
  · rw [entries, ← census, UInt64.ofNat_add, UInt64.add_sub_cancel]
  · rw [frees, dead]
  · rw [entries, inserts, frees]
  · rw [hits, misses, looks, UInt64.ofNat_add]

/-- Then the first directory is scanned, which destroys its older entry; a plain name is looked up
    in it during the scan, which is refused, and once more in each directory. -/
def Request.tallied : List Request := Request.mingled ++
  [⟨none, .within 0 (.beginUpdate .exclusive 7)⟩, ⟨none, .within 0 (.update 2)⟩,
    ⟨none, .within 0 (.lookupName [1])⟩, ⟨none, .within 0 .endUpdate⟩,
    ⟨none, .within 0 (.lookupName [3])⟩, ⟨none, .within 1 (.lookupName [1])⟩]

/-- The first manager has counted one entry out of two and one miss, and the tables have the entry
    of the second manager beside it. -/
theorem Session.truthful_for_two : ∃ past w, Session past w ∧
    w.census (·.manager == 0) = 1 ∧ w.census (·.pool == 0) = 2 ∧
    (Deed.insertions (deedsBy past 0)).length = 2 ∧
    (deedsBy past 0).countP Deed.looksUp = 1 ∧ (deedsBy past 0).countP Deed.finds = 0 ∧
    (w.tally 0).entries = UInt64.ofNat (w.census (·.manager == 0)) ∧
    (w.tally 0).inserts = UInt64.ofNat (Deed.insertions (deedsBy past 0)).length ∧
    (w.tally 0).hits + (w.tally 0).misses =
      UInt64.ofNat ((deedsBy past 0).countP Deed.looksUp) ∧
    (w.pool 0).names.length = w.census (·.pool == 0) := by
  have session := Session.pair.answers Request.tallied
  obtain ⟨managers, pools⟩ := Session.truthful session
  obtain ⟨-, entries, inserts, -, -, lookups, -⟩ := managers 0
  exact ⟨_, _, session, by decide +kernel, by decide +kernel, by decide +kernel,
    by decide +kernel, by decide +kernel, entries, inserts, lookups, (pools 0).1⟩

end NameCache
