/-
  When an opened directory is sound, and where its operations may lead.

  A pool may be shared, so its tables hold entries that the directory knows nothing of: `others`.
  `Opened.Sound` says that the lists and the ledger are in order and that the tables hold exactly
  the others' entries and the directory's own, newest first.

  `Opened.Leads` is what the rest of the world may rely on: an operation changes only entries that
  the directory held or makes, keeps their names, and each of them ends up either held or destroyed,
  and nothing else is ever gained.  It is transitive, so loops and compound operations have it from
  their steps.
-/
import NameCache.Proofs.Directory.Confirming
import NameCache.Proofs.Pool

namespace NameCache

/-- An entry that is no more: it has neither a key nor a link. -/
structure Entry.Destroyed (x : Entry) : Prop where
  key : x.key = none
  dirNode : x.dirNode = none
  nameNode : x.nameNode = none
  encnameNode : x.encnameNode = none

theorem Entry.Destroyed.not_live {x : Entry} (h : x.Destroyed) : x.live = false := by
  rw [live, h.key]
  rfl

namespace Opened

variable {s s' s'' : Opened} {others : Nat → Prop} {e n d l : Nat} {expiry : Expiry}

/-- The directory is in order, beside other entries on its pool. -/
structure Sound (s : Opened) (others : Nat → Prop) : Prop where
  standing : Standing s.dir.lists s.entries
  ledger : s.ledger.Sound
  linked : ∃ order, s.pool.Sound s.entries order ∧ order.Pairwise (· > ·) ∧
    ∀ e, e ∈ order ↔ others e ∨ s.dir.Holds e
  apart : ∀ e, others e → ¬ s.dir.Holds e ∧ e < s.entries.size

/-- Where operations on the directory may lead. -/
structure Leads (s s' : Opened) : Prop where
  id : s'.dir.id = s.dir.id
  manager : s'.dir.manager = s.dir.manager
  number : s'.dir.pool = s.dir.pool
  grows : s.entries.size ≤ s'.entries.size
  /-- An entry that the directory does not hold is as it was. -/
  apart : ∀ e, e < s.entries.size → ¬ s.dir.Holds e → s'.entries.entry e = s.entries.entry e
  /-- An entry keeps its directory and its names. -/
  names : ∀ e, e < s.entries.size → (s'.entries.entry e).dir = (s.entries.entry e).dir ∧
    (s'.entries.entry e).name = (s.entries.entry e).name ∧
    (s'.entries.entry e).encname = (s.entries.entry e).encname
  /-- An entry never gets another key. -/
  key : ∀ e, e < s.entries.size → (s'.entries.entry e).key = (s.entries.entry e).key ∨
    (s'.entries.entry e).key = none
  /-- An entry that is held newly is new. -/
  gained : ∀ e, s'.dir.Holds e → s.dir.Holds e ∨ s.entries.size ≤ e
  /-- An entry that was held or is new is held or destroyed. -/
  fate : ∀ e, e < s'.entries.size → s.dir.Holds e ∨ s.entries.size ≤ e →
    s'.dir.Holds e ∨ (s'.entries.entry e).Destroyed

namespace Sound

/-- What is held is on record. -/
theorem holds_lt (sound : s.Sound others) (he : s.dir.Holds e) : e < s.entries.size := by
  have h := (sound.ledger.fit e he).bound
  have size : s.ledger.entries.size = s.entries.size := Array.size_map
  rwa [size] at h

/-- What is held is live. -/
theorem holds_live (sound : s.Sound others) (he : s.dir.Holds e) : (s.entries.entry e).live := by
  have h := (sound.ledger.fit e he).live
  have bare : s.ledger.entries.entry e = (s.entries.entry e).bare := Entries.entry_map_bare
  rwa [bare, Entry.live_bare] at h

/-- What is held belongs to the directory. -/
theorem holds_own (sound : s.Sound others) (he : s.dir.Holds e) :
    (s.entries.entry e).dir = s.dir.id := by
  have h := (sound.ledger.fit e he).own
  have bare : s.ledger.entries.entry e = (s.entries.entry e).bare := Entries.entry_map_bare
  rwa [bare] at h

/-- What is active has the generation of the directory. -/
theorem current (sound : s.Sound others) (he : e ∈ s.dir.activeEntries) :
    (s.entries.entry e).generation = s.dir.generation := by
  have h := sound.ledger.current e he
  have bare : s.ledger.entries.entry e = (s.entries.entry e).bare := Entries.entry_map_bare
  rwa [bare] at h

/-- What is held is at a node, under its link. -/
theorem node (sound : s.Sound others) (he : s.dir.Holds e) :
    ∃ n l, (n, e) ∈ s.dir.lists.chain l ∧ (s.entries.entry e).dirNode = some n := by
  rcases he with h | h
  all_goals
    obtain ⟨n, hm⟩ := SlotLists.mem_values.mp h
    exact ⟨n, _, hm, sound.standing.link _ _ _ hm⟩

/-- Only the lists, and the places and generations of entries, were changed. -/
theorem relist (sound : s.Sound others) {touched : Nat → Prop} (relisted : Relisted touched s s')
    (standing : Standing s'.dir.lists s'.entries) (ledger : s'.ledger.Sound)
    (holds : ∀ e, s'.dir.Holds e ↔ s.dir.Holds e) : s'.Sound others := by
  obtain ⟨order, pool, sorted, members⟩ := sound.linked
  refine ⟨standing, ledger, ⟨order, ?_, sorted, fun e => ?_⟩, fun e he => ?_⟩
  · rw [relisted.pool]
    exact pool.congr fun e _ kind => relisted.linked e kind
  · rw [members, holds]
  · rw [holds, relisted.size]
    exact sound.apart e he

end Sound

namespace Leads

theorem refl (s : Opened) : s.Leads s where
  id := rfl
  manager := rfl
  number := rfl
  grows := Nat.le_refl _
  apart := fun _ _ _ => rfl
  names := fun _ _ => ⟨rfl, rfl, rfl⟩
  key := fun _ _ => .inl rfl
  gained := fun _ h => .inl h
  fate := fun _ he h => h.elim .inl fun h => absurd he (Nat.not_lt.mpr h)

theorem trans (first : s.Leads s') (second : s'.Leads s'') : s.Leads s'' where
  id := second.id.trans first.id
  manager := second.manager.trans first.manager
  number := second.number.trans first.number
  grows := Nat.le_trans first.grows second.grows
  apart := fun e he hs => by
    have off : ¬ s'.dir.Holds e := fun h =>
      (first.gained e h).elim hs fun h => absurd he (Nat.not_lt.mpr h)
    rw [second.apart e (Nat.lt_of_lt_of_le he first.grows) off, first.apart e he hs]
  names := fun e he => by
    obtain ⟨h₁, h₂, h₃⟩ := first.names e he
    obtain ⟨k₁, k₂, k₃⟩ := second.names e (Nat.lt_of_lt_of_le he first.grows)
    exact ⟨k₁.trans h₁, k₂.trans h₂, k₃.trans h₃⟩
  key := fun e he => by
    rcases second.key e (Nat.lt_of_lt_of_le he first.grows) with h | h
    · rw [h]
      exact first.key e he
    · exact .inr h
  gained := fun e he => by
    rcases second.gained e he with h | h
    · exact first.gained e h
    · exact .inr (Nat.le_trans first.grows h)
  fate := fun e he h => by
    by_cases new : s'.entries.size ≤ e
    · exact second.fate e he (.inr new)
    · have lt : e < s'.entries.size := Nat.not_le.mp new
      by_cases held : s'.dir.Holds e
      · exact second.fate e he (.inl held)
      · rw [second.apart e lt held]
        exact .inr ((first.fate e lt h).resolve_left held)

/-- Only lists, places and generations were changed, and only of entries that are held. -/
theorem of_relisted (relisted : Relisted s.dir.Holds s s') (id : s'.dir.id = s.dir.id)
    (holds : ∀ e, s'.dir.Holds e ↔ s.dir.Holds e) : s.Leads s' where
  id := id
  manager := relisted.manager
  number := relisted.number
  grows := Nat.le_of_eq relisted.size.symm
  apart := fun e _ h => relisted.apart e h
  names := fun e _ => by
    rw [relisted.entry e]
    exact ⟨rfl, rfl, rfl⟩
  key := fun e _ => by
    rw [relisted.entry e]
    exact .inl rfl
  gained := fun e h => .inl ((holds e).mp h)
  fate := fun e he h => h.elim (fun h => .inl ((holds e).mpr h)) fun h =>
    absurd he (Nat.not_lt.mpr (relisted.size ▸ h))

/-- A destroyed entry is never held again, and stays as it is. -/
theorem destroyed (leads : s.Leads s') (sound : s.Sound others) (he : e < s.entries.size)
    (h : (s.entries.entry e).Destroyed) : s'.entries.entry e = s.entries.entry e :=
  leads.apart e he fun held => absurd (sound.holds_live held) (by rw [h.not_live]; decide)

end Leads

end Opened

end NameCache
