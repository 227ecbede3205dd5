/-
  A world that hosts directories.

  A directory is not always in its place: one that is being dropped has left the world and still
  destroys its entries, and one that is only passed through never gets a place.  So what holds of
  the directories together is said of any family of them, `present`, and `Hosts w present` says that

  * each directory is in order over the world's entries,
  * no entry is held by two directories,
  * each pool holds exactly the entries of the directories on it, newest first, and
  * every entry ever made is held by a directory or destroyed.

  The crux is `Hosts.step`: an operation on one directory that is sound on its own and leads where
  operations may lead keeps all of that, for all directories and all pools.  It rests on one fact,
  that the operation changes no entry which the directory did not hold.
-/
import NameCache.Session.Run
import NameCache.Proofs.Directory.Acting

namespace NameCache

/-! ## Families of directories -/

/-- Directories under their numbers. -/
abbrev Family := Nat → Option Directory

namespace Family

variable {present : Family} {d d' : Nat} {x : Option Directory}

/-- The family with another directory, or none, under a number. -/
def set (present : Family) (d : Nat) (x : Option Directory) : Family :=
  fun i => if i = d then x else present i

@[simp] theorem set_self : present.set d x d = x := if_pos rfl

theorem set_ne (h : d' ≠ d) : present.set d x d' = present d' := if_neg h

theorem set_set (present : Family) (d : Nat) (x y : Option Directory) :
    (present.set d x).set d y = present.set d y := by
  funext i
  by_cases h : i = d
  · rw [h, set_self, set_self]
  · rw [set_ne h, set_ne h, set_ne h]

/-- A member of the family with another directory is that directory or was there before. -/
theorem set_eq_some {dir dir' : Directory} (there : present.set d (some dir) d' = some dir') :
    (d' = d ∧ dir' = dir) ∨ (d' ≠ d ∧ present d' = some dir') := by
  by_cases h : d' = d
  · subst h
    rw [set_self] at there
    exact .inl ⟨rfl, (Option.some.inj there).symm⟩
  · rw [set_ne h] at there
    exact .inr ⟨h, there⟩

/-- Some directory on pool `p` holds the entry. -/
def HeldOn (present : Family) (p e : Nat) : Prop :=
  ∃ d dir, present d = some dir ∧ dir.pool = p ∧ dir.Holds e

/-- Some directory on pool `p` other than `d` holds the entry. -/
def HeldBeside (present : Family) (d p e : Nat) : Prop :=
  ∃ d' dir, d' ≠ d ∧ present d' = some dir ∧ dir.pool = p ∧ dir.Holds e

theorem heldOn_iff {dir : Directory} (here : present d = some dir) (e : Nat) :
    present.HeldOn dir.pool e ↔ present.HeldBeside d dir.pool e ∨ dir.Holds e := by
  constructor
  · rintro ⟨d', dir', there, on_pool, held⟩
    by_cases h : d' = d
    · subst h
      obtain rfl := Option.some.inj (there.symm.trans here)
      exact .inr held
    · exact .inl ⟨d', dir', h, there, on_pool, held⟩
  · rintro (⟨d', dir', -, there, on_pool, held⟩ | held)
    · exact ⟨d', dir', there, on_pool, held⟩
    · exact ⟨d, dir, here, rfl, held⟩

theorem heldBeside_set (d p e : Nat) :
    (present.set d x).HeldBeside d p e ↔ present.HeldBeside d p e := by
  constructor
  · rintro ⟨d', dir', h, there, rest⟩
    exact ⟨d', dir', h, (set_ne h).symm.trans there, rest⟩
  · rintro ⟨d', dir', h, there, rest⟩
    exact ⟨d', dir', h, (set_ne h).trans there, rest⟩

/-- What is on another pool is another directory. -/
theorem ne_of_pool {dir dir' : Directory} (here : present d = some dir)
    (there : present d' = some dir') (h : dir'.pool ≠ dir.pool) : d' ≠ d := by
  rintro rfl
  obtain rfl := Option.some.inj (here.symm.trans there)
  exact h rfl

/-- Other pools do not notice when a directory changes. -/
theorem heldOn_set {dir new : Directory} {p : Nat} (here : present d = some dir)
    (same : new.pool = dir.pool) (hp : p ≠ dir.pool) (e : Nat) :
    (present.set d (some new)).HeldOn p e ↔ present.HeldOn p e := by
  constructor
  · rintro ⟨d', dir', there, rfl, held⟩
    rcases set_eq_some there with ⟨-, rfl⟩ | ⟨-, there⟩
    · exact absurd same hp
    · exact ⟨d', dir', there, rfl, held⟩
  · rintro ⟨d', dir', there, rfl, held⟩
    exact ⟨d', dir', (set_ne (ne_of_pool here there hp)).trans there, rfl, held⟩

end Family

namespace World

variable {w w' : World} {present : Family} {dir dir' : Directory} {d d' e p : Nat} {s : Opened}

/-- The world hosts these directories. -/
structure Hosts (w : World) (present : Family) : Prop where
  standing : ∀ d dir, present d = some dir → Standing dir.lists w.entries
  ledger : ∀ d dir, present d = some dir → (w.opened dir).ledger.Sound
  disjoint : ∀ d d' dir dir' e, present d = some dir → present d' = some dir' →
    dir.Holds e → dir'.Holds e → d = d'
  pools : ∀ p, p < w.pools.size → ∃ order, (w.pool p).Sound w.entries order ∧
    order.Pairwise (· > ·) ∧ ∀ e, e ∈ order ↔ present.HeldOn p e
  fate : ∀ e, e < w.entries.size →
    (∃ d dir, present d = some dir ∧ dir.Holds e) ∨ (w.entries.entry e).Destroyed
  pool_lt : ∀ d dir, present d = some dir → dir.pool < w.pools.size
  manager_lt : ∀ d dir, present d = some dir → dir.manager < w.tallies.size

theorem pool_closed (s : Opened) (hp : s.dir.pool < w.pools.size) (p : Nat) :
    (w.closed s).pool p = if p = s.dir.pool then s.pool else w.pool p := by
  rw [pool, closed, Array.getElem?_setIfInBounds]
  by_cases h : p = s.dir.pool
  · rw [if_pos h.symm, if_pos (h ▸ hp), if_pos h]
    rfl
  · rw [if_neg (fun heq => h heq.symm), if_neg h]
    rfl

theorem tally_closed (s : Opened) (hm : s.dir.manager < w.tallies.size) (m : Nat) :
    (w.closed s).tally m = if m = s.dir.manager then s.tally else w.tally m := by
  rw [tally, closed, Array.getElem?_setIfInBounds]
  by_cases h : m = s.dir.manager
  · rw [if_pos h.symm, if_pos (h ▸ hm), if_pos h]
    rfl
  · rw [if_neg (fun heq => h heq.symm), if_neg h]
    rfl

@[simp] theorem size_pools_closed : (w.closed s).pools.size = w.pools.size :=
  Array.size_setIfInBounds

@[simp] theorem size_tallies_closed : (w.closed s).tallies.size = w.tallies.size :=
  Array.size_setIfInBounds

/-- A ledger's soundness depends on the directory and the entries it holds. -/
theorem sound_ledger_congr (sound : (w.opened dir).ledger.Sound)
    (grows : w.entries.size ≤ w'.entries.size)
    (same : ∀ e, dir.Holds e → w'.entries.entry e = w.entries.entry e) :
    (w'.opened dir).ledger.Sound := by
  have bare : ∀ e, dir.Holds e →
      (w'.opened dir).ledger.entries.entry e = (w.opened dir).ledger.entries.entry e := by
    intro e he
    show Entries.entry (w'.entries.map Entry.bare) e = Entries.entry (w.entries.map Entry.bare) e
    rw [Entries.entry_map_bare, Entries.entry_map_bare, same e he]
  have size : (w.opened dir).ledger.entries.size ≤ (w'.opened dir).ledger.entries.size := by
    show (w.entries.map Entry.bare).size ≤ (w'.entries.map Entry.bare).size
    rw [Array.size_map, Array.size_map]
    exact grows
  exact
    { active_nodup := sound.active_nodup
      stale_nodup := sound.stale_nodup
      disjoint := sound.disjoint
      fit := fun e he => (sound.fit e he).congr size (congrArg Entry.live (bare e he))
        (congrArg Entry.dir (bare e he)) rfl
      one_list := sound.one_list
      current := fun e he => (congrArg Entry.generation (bare e (.inl he))).trans
        (sound.current e he)
      doubt := sound.doubt
      scan := sound.scan }

namespace Hosts

/-- Nothing hosted is beyond the entries on record. -/
theorem holds_lt (hosts : w.Hosts present) (here : present d = some dir) (he : dir.Holds e) :
    e < w.entries.size := by
  have h := ((hosts.ledger d dir here).fit e he).bound
  have size : (w.opened dir).ledger.entries.size = w.entries.size := Array.size_map
  rwa [size] at h

/-- Each directory is sound beside the others on its pool. -/
theorem opened (hosts : w.Hosts present) (here : present d = some dir) :
    (w.opened dir).Sound (present.HeldBeside d dir.pool) where
  standing := hosts.standing d dir here
  ledger := hosts.ledger d dir here
  linked := by
    obtain ⟨order, linked, sorted, members⟩ := hosts.pools dir.pool (hosts.pool_lt d dir here)
    exact ⟨order, linked, sorted, fun e => (members e).trans (Family.heldOn_iff here e)⟩
  apart := by
    rintro e ⟨d', dir', ne, there, -, held⟩
    exact ⟨fun h => ne (hosts.disjoint d' d dir' dir e there here held h),
      hosts.holds_lt there held⟩

/-- An operation on one directory leaves what the others hold as it was. -/
theorem other_same (hosts : w.Hosts present) (here : present d = some dir)
    (leads : (w.opened dir).Leads s) (there : present d' = some dir') (ne : d' ≠ d)
    (held : dir'.Holds e) : s.entries.entry e = w.entries.entry e :=
  leads.apart e (hosts.holds_lt there held) fun h =>
    ne (hosts.disjoint d' d dir' dir e there here held h)

/-- An operation on one directory never gains what another holds. -/
theorem other_free (hosts : w.Hosts present) (here : present d = some dir)
    (leads : (w.opened dir).Leads s) (there : present d' = some dir') (ne : d' ≠ d)
    (held : dir'.Holds e) : ¬ s.dir.Holds e := by
  intro h
  rcases leads.gained e h with old | new
  · exact ne (hosts.disjoint d' d dir' dir e there here held old)
  · exact absurd (hosts.holds_lt there held) (Nat.not_lt.mpr new)

/-- An operation on one directory keeps each pool in order: its own has what the operation made of
    it, and every other one has what it had. -/
theorem step_pool (hosts : w.Hosts present) (here : present d = some dir)
    (sound : s.Sound (present.HeldBeside d dir.pool)) (leads : (w.opened dir).Leads s)
    (hp : p < w.pools.size) :
    ∃ order, ((w.closed s).pool p).Sound s.entries order ∧ order.Pairwise (· > ·) ∧
      ∀ e, e ∈ order ↔ (present.set d (some s.dir)).HeldOn p e := by
  have number : s.dir.pool = dir.pool := leads.number
  rw [pool_closed s (number ▸ hosts.pool_lt d dir here)]
  by_cases hpool : p = s.dir.pool
  · obtain ⟨order, linked, sorted, members⟩ := sound.linked
    rw [if_pos hpool]
    refine ⟨order, linked, sorted, fun e => ?_⟩
    rw [members, hpool, Family.heldOn_iff Family.set_self, Family.heldBeside_set, number]
  · obtain ⟨order, linked, sorted, members⟩ := hosts.pools p hp
    rw [if_neg hpool]
    rw [number] at hpool
    refine ⟨order, linked.congr fun e he kind => ?_, sorted, fun e => ?_⟩
    · obtain ⟨d', dir', there, rfl, held⟩ := (members e).mp he
      show (s.entries.entry e).hash kind = _ ∧ (s.entries.entry e).bucketNode kind = _
      rw [hosts.other_same here leads there (Family.ne_of_pool here there hpool) held]
      exact ⟨rfl, rfl⟩
    · rw [members, Family.heldOn_set here number hpool]

/-- After an operation on one directory every entry is held or destroyed, as before. -/
theorem step_fate (hosts : w.Hosts present) (here : present d = some dir)
    (leads : (w.opened dir).Leads s) (he : e < s.entries.size) :
    (∃ d' dir', present.set d (some s.dir) d' = some dir' ∧ dir'.Holds e) ∨
      (s.entries.entry e).Destroyed := by
  have mine : s.dir.Holds e ∨ (s.entries.entry e).Destroyed →
      (∃ d' dir', present.set d (some s.dir) d' = some dir' ∧ dir'.Holds e) ∨
        (s.entries.entry e).Destroyed :=
    fun h => h.imp_left fun held => ⟨d, s.dir, Family.set_self, held⟩
  -- the operation answers for what it made and for what its directory held
  by_cases new : w.entries.size ≤ e
  · exact mine (leads.fate e he (.inr new))
  · have lt : e < w.entries.size := Nat.not_le.mp new
    rcases hosts.fate e lt with ⟨d', dir', there, held⟩ | gone
    · by_cases ne : d' = d
      · subst ne
        obtain rfl := Option.some.inj (there.symm.trans here)
        exact mine (leads.fate e he (.inl held))
      · exact .inl ⟨d', dir', (Family.set_ne ne).trans there, held⟩
    · refine .inr ?_
      rw [leads.destroyed (hosts.opened here) lt gone]
      exact gone

/-- An operation on one directory keeps the world in order. -/
theorem step (hosts : w.Hosts present) (here : present d = some dir)
    (sound : s.Sound (present.HeldBeside d dir.pool)) (leads : (w.opened dir).Leads s) :
    (w.closed s).Hosts (present.set d (some s.dir)) := by
  constructor
  case standing =>
    intro d' dir' there
    rcases Family.set_eq_some there with ⟨rfl, rfl⟩ | ⟨ne, there⟩
    · exact sound.standing
    · -- another directory's links are in entries that the operation left alone
      refine (hosts.standing d' dir' there).congr fun l e he => ?_
      obtain ⟨n, hm⟩ := SlotLists.mem_values.mp he
      have held : dir'.Holds e :=
        Opened.holds_of_mem (s := w.opened dir') (hosts.standing d' dir' there) hm
      exact congrArg Entry.dirNode (hosts.other_same here leads there ne held)
  case ledger =>
    intro d' dir' there
    rcases Family.set_eq_some there with ⟨rfl, rfl⟩ | ⟨ne, there⟩
    · exact sound_ledger_congr (w := { w with entries := s.entries })
        (sound.recorded _ _).ledger (Nat.le_refl _) fun _ _ => rfl
    · exact sound_ledger_congr (hosts.ledger d' dir' there) leads.grows fun e he =>
        hosts.other_same here leads there ne he
  case disjoint =>
    intro d₁ d₂ dir₁ dir₂ e there₁ there₂ held₁ held₂
    rcases Family.set_eq_some there₁ with ⟨h₁, rfl⟩ | ⟨ne₁, old₁⟩
    · rcases Family.set_eq_some there₂ with ⟨h₂, rfl⟩ | ⟨ne₂, old₂⟩
      · exact h₁.trans h₂.symm
      · exact absurd held₁ (hosts.other_free here leads old₂ ne₂ held₂)
    · rcases Family.set_eq_some there₂ with ⟨-, rfl⟩ | ⟨ne₂, old₂⟩
      · exact absurd held₂ (hosts.other_free here leads old₁ ne₁ held₁)
      · exact hosts.disjoint d₁ d₂ dir₁ dir₂ e old₁ old₂ held₁ held₂
  case pools =>
    intro p hp
    exact hosts.step_pool here sound leads (size_pools_closed ▸ hp)
  case fate => exact fun e he => hosts.step_fate here leads he
  case pool_lt =>
    intro d' dir' there
    rw [size_pools_closed]
    rcases Family.set_eq_some there with ⟨rfl, rfl⟩ | ⟨ne, there⟩
    · rw [leads.number]
      exact hosts.pool_lt d' dir here
    · exact hosts.pool_lt d' dir' there
  case manager_lt =>
    intro d' dir' there
    rw [size_tallies_closed]
    rcases Family.set_eq_some there with ⟨rfl, rfl⟩ | ⟨ne, there⟩
    · rw [leads.manager]
      exact hosts.manager_lt d' dir here
    · exact hosts.manager_lt d' dir' there

end Hosts

end World

end NameCache
