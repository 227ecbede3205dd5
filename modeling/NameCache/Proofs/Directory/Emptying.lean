/-
  Destroying every entry of a directory.

  A purge runs two loops over lists that it takes apart as it goes.  `Frees` has the states on the
  way, and three facts are read off it by induction on the entries that are left: each of them is
  recorded as it was before anything was destroyed, nothing is left of it afterwards, and nobody
  else's entry is touched.  `Opened.Emptied` puts them together with what the ledger says of keys
  and counters.
-/
import NameCache.Proofs.Directory.Counters
import NameCache.Proofs.Directory.Effects
import NameCache.Proofs.Directory.Work

namespace NameCache

/-- The entries of a directory in the order in which a purge destroys them: the stale ones and then
    the active ones, each list from the front. -/
def Directory.purgeOrder (d : Directory) : List Nat := d.staleEntries ++ d.activeEntries

/-- Whether an event is that an entry was destroyed. -/
def Event.frees : Event → Bool
  | .freedEntry _ _ => true
  | _ => false

namespace Entries

/-- The trace of destroying entries of directory number `id` in order. -/
def freeings (entries : Entries) (id : UInt64) (es : List Nat) : List Event :=
  es.map fun e => .freedEntry id (entries.entry e)

theorem filter_freeings (entries : Entries) (id : UInt64) (es : List Nat) :
    (entries.freeings id es).filter Event.frees = entries.freeings id es := by
  rw [List.filter_eq_self]
  intro event recorded
  obtain ⟨e, -, rfl⟩ := List.mem_map.mp recorded
  rfl

/-- Whatever is destroyed, of each entry there is left what there was, or what is spent of it. -/
theorem entry_spent (entries : Entries) (e d : Nat) :
    Entries.entry (entries.modify e Entry.spent) d =
      if d = e then (entries.entry d).spent else entries.entry d := by
  by_cases same : d = e
  · subst same
    rw [if_pos rfl]
    by_cases known : d < entries.size
    · exact entry_modify_self known
    · -- a number that no entry has stands for an entry of which nothing is left
      have beyond : (entries.modify d Entry.spent).size ≤ d := by
        rw [size_modify]
        omega
      rw [entry_of_le beyond, entry_of_le (Nat.not_lt.mp known)]
      rfl
  · rw [if_neg same, entry_modify_ne same]

theorem filter_purgeTrace (id : UInt64) (n : Nat) :
    (Opened.purgeTrace id n).filter Event.frees = [] := by
  unfold Opened.purgeTrace
  split <;> rfl

/-- Live entries give their keys back one by one. -/
theorem map_some_releases {entries : Entries} {es : List Nat}
    (live : ∀ e ∈ es, (entries.entry e).live = true) : (entries.releases es).map some =
      es.map fun e => (entries.entry e).key.map .released := by
  induction es with
  | nil => rfl
  | cons e rest ih =>
    obtain ⟨alive, others⟩ := List.forall_mem_cons.mp live
    obtain ⟨label, key⟩ := Option.isSome_iff_exists.mp alive
    have first : entries.releases (e :: rest) = .released label :: entries.releases rest := by
      unfold releases
      rw [List.map_cons, key]
      rfl
    rw [first, List.map_cons, List.map_cons, ih others, key]
    rfl

end Entries

theorem Entry.spent_spent (x : Entry) : x.spent.spent = x.spent := rfl

namespace Opened

variable {s s' : Opened} {others : Nat → Prop} {es : List Nat}

/-! ## On the way -/

namespace Frees

theorem size (frees : s.Frees es s') : s'.entries.size = s.entries.size := by
  induction frees with
  | nil => rfl
  | cons _ _ _ _ ih => rw [ih, size_entries_freed]

/-- Of an entry that was destroyed nothing is left, and every other one is as it was. -/
theorem entry (frees : s.Frees es s') (d : Nat) : s'.entries.entry d =
    if d ∈ es then (s.entries.entry d).spent else s.entries.entry d := by
  induction frees with
  | nil => exact (if_neg List.not_mem_nil).symm
  | @cons s s' e rest lists pool label _ ih =>
    have first : (s.freed e lists pool label).entries.entry d =
        if d = e then (s.entries.entry d).spent else s.entries.entry d := s.entries.entry_spent e d
    rw [ih, first]
    by_cases now : d = e
    · subst now
      rw [if_pos rfl, if_pos (List.mem_cons_self ..), Entry.spent_spent, ite_self]
    · by_cases later : d ∈ rest
      · rw [if_neg now, if_pos later, if_pos (List.mem_cons_of_mem _ later)]
      · have neither : d ∉ e :: rest := fun h => (List.mem_cons.mp h).elim now later
        rw [if_neg now, if_neg later, if_neg neither]

/-- Each entry is recorded as it was before any of them was destroyed. -/
theorem events (frees : s.Frees es s') (nodup : es.Nodup) :
    s'.log.events = (s.entries.freeings s.dir.id es).reverse ++ s.log.events := by
  induction frees with
  | nil => rfl
  | @cons s s' e rest lists pool label _ ih =>
    obtain ⟨off, nodup⟩ := List.nodup_cons.mp nodup
    have others : (s.freed e lists pool label).entries.freeings s.dir.id rest =
        s.entries.freeings s.dir.id rest := by
      refine List.map_congr_left fun d hd => ?_
      have other : d ≠ e := fun same => off (same ▸ hd)
      rw [freed_entry_ne other]
    refine (ih nodup).trans ?_
    show ((s.freed e lists pool label).entries.freeings s.dir.id rest).reverse ++
      .freedEntry s.dir.id (s.entries.entry e) :: s.log.events = _
    rw [others]
    show _ = (.freedEntry s.dir.id (s.entries.entry e) :: s.entries.freeings s.dir.id rest).reverse
      ++ s.log.events
    rw [List.reverse_cons, List.append_assoc]
    rfl

end Frees

/-! ## A purge -/

/-- A directory after all its entries were destroyed. -/
structure Emptied (s s' : Opened) : Prop where
  activeEntries : s'.dir.activeEntries = []
  staleEntries : s'.dir.staleEntries = []
  generation : s'.dir.generation = s.dir.generation
  updating : s'.dir.updating = s.dir.updating
  size : s'.entries.size = s.entries.size
  /-- Nothing is left of the entries that it had, and every other one is as it was. -/
  entry : ∀ e, s'.entries.entry e =
    if e ∈ s.dir.purgeOrder then (s.entries.entry e).spent else s.entries.entry e
  shape : (s'.dir.pool, s'.pool.shape) = (s.dir.pool, s.pool.shape)
  tally : s'.tally = s.tally.addFrees s.dir.length
  /-- They give their keys back in order. -/
  keys : s'.log.keys = (s.entries.releases s.dir.purgeOrder).reverse ++ s.log.keys
  /-- They are recorded in order. -/
  events : s'.log.events = (s.entries.freeings s.dir.id s.dir.purgeOrder ++
    purgeTrace s.dir.id s.dir.length).reverse ++ s.log.events

theorem Sound.purgeOrder_nodup (sound : s.Sound others) : s.dir.purgeOrder.Nodup :=
  Ledger.nodup_destroyed sound.ledger.toTidy .purge

theorem mem_purgeOrder {dir : Directory} {e : Nat} : e ∈ dir.purgeOrder ↔ dir.Holds e := by
  rw [Directory.purgeOrder, List.mem_append]
  exact or_comm

/-- Such a directory holds nothing. -/
theorem Emptied.not_holds (empties : s.Emptied s') (e : Nat) : ¬ s'.dir.Holds e := by
  rintro (active | stale)
  · rw [empties.activeEntries] at active
    exact List.not_mem_nil active
  · rw [empties.staleEntries] at stale
    exact List.not_mem_nil stale

/-- As many entries as the directory has are destroyed. -/
theorem Sound.length_purgeOrder (sound : s.Sound others) :
    s.dir.purgeOrder.length = s.dir.length := by
  rw [Directory.purgeOrder, List.length_append, sound.standing.length_eq]
  exact Nat.add_comm _ _

/-- A purge destroys every entry, and answers how many. -/
theorem purge_empties (sound : s.Sound others) :
    ∃ s', purge s = .ok s.dir.length s' ∧ s'.Sound others ∧ s.Leads s' ∧ s.Emptied s' := by
  obtain ⟨s₁, run, frees, sound₁, leads, ledger⟩ := purge_frees sound
  have count : s.dir.staleEntries.length + s.dir.activeEntries.length = s.dir.length := by
    have total := sound.standing.length_eq
    omega
  rw [count] at run
  let s' : Opened := { s₁ with log := s₁.log.emitAll (purgeTrace s.dir.id s.dir.length) }
  have tidy := sound.ledger.toTidy
  have same : s'.ledger = s.ledger.purge := ledger
  have empty : ∀ e, ¬ s'.dir.Holds e := fun e held => by
    have left : s'.ledger.Holds e := held
    rw [same] at left
    exact Ledger.not_holds_purge tidy left
  refine ⟨s', run, sound₁.recorded _ _, leads.trans (.recorded _ _ _), ?_⟩
  constructor
  case activeEntries => exact List.eq_nil_iff_forall_not_mem.mpr fun e he => empty e (.inl he)
  case staleEntries => exact List.eq_nil_iff_forall_not_mem.mpr fun e he => empty e (.inr he)
  case generation => exact (congrArg Ledger.generation same).trans Ledger.generation_purge
  case updating => exact (congrArg Ledger.updating same).trans Ledger.updating_purge
  case size => exact frees.size
  case entry => exact frees.entry
  case shape =>
    have kept := work_purge.keeps_shape s
    rwa [Step.settled_of_ok run] at kept
  case tally =>
    have purges := congrArg Ledger.tally same
    rw [Ledger.purge_eq, Ledger.tally_dropAll, List.length_append] at purges
    rw [← count]
    exact purges
  case keys =>
    have purges := congrArg Ledger.keys same
    rw [Ledger.keys_purge tidy] at purges
    refine purges.trans ?_
    show (Entries.releases (s.entries.map Entry.bare) s.dir.purgeOrder).reverse ++ _ = _
    rw [Entries.releases_map_bare]
    rfl
  case events =>
    show (purgeTrace s.dir.id s.dir.length).reverse ++ s₁.log.events = _
    rw [frees.events sound.purgeOrder_nodup, List.reverse_append, List.append_assoc]
    rfl

end Opened

end NameCache
