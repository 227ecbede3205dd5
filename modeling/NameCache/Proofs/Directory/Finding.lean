/-
  What a lookup finds, told by the insertions.

  A lookup goes through one bucket of a table that may be shared.  It finds the first entry there
  that has the directory's number and the name, and that is the latest insertion of the directory
  under that name whose entry is still live (`find_insertions`): the bucket holds the entries of its
  hash in the order of their insertion, whatever the geometry and whoever else uses the table, and
  no other directory on the pool has the same number.

  The crux is `find?_eq_of_descending`: two lists in descending order that have the same entries of
  interest have the same first one.
-/
import NameCache.Proofs.Directory.Insertions
import NameCache.Proofs.Places

namespace NameCache

/-- Two lists in descending order that have the same members are the same. -/
theorem eq_of_descending {l l' : List Nat} (sorted : l.Pairwise (· > ·))
    (sorted' : l'.Pairwise (· > ·)) (same : ∀ e, e ∈ l ↔ e ∈ l') : l = l' := by
  have nodup : ∀ {l : List Nat}, l.Pairwise (· > ·) → l.Nodup := fun h =>
    List.Pairwise.imp (fun {a b} (gt : a > b) => (Nat.ne_of_lt gt).symm) h
  have perm : l.Perm l' := (List.perm_ext_iff_of_nodup (nodup sorted) (nodup sorted')).mpr same
  exact perm.eq_of_pairwise (fun a b _ _ gt lt => absurd gt (Nat.lt_asymm lt)) sorted sorted'

/-- The first entry of interest depends on which there are, if they stand in descending order. -/
theorem find?_eq_of_descending {l l' : List Nat} {p q : Nat → Bool} (sorted : l.Pairwise (· > ·))
    (sorted' : l'.Pairwise (· > ·)) (same : ∀ e, (e ∈ l ∧ p e = true) ↔ (e ∈ l' ∧ q e = true)) :
    l.find? p = l'.find? q := by
  have filtered : l.filter p = l'.filter q := by
    refine eq_of_descending (sorted.filter p) (sorted'.filter q) fun e => ?_
    rw [List.mem_filter, List.mem_filter, same]
  rw [← List.head?_filter, ← List.head?_filter, filtered]

namespace Deed

/-- An insertion: the entry made and the names it was inserted under. -/
structure Record where
  entry : Nat
  name : Bytes
  encname : Bytes

/-- The name of the given kind. -/
def Record.text (x : Record) : NameKind → Bytes
  | .plain => x.name
  | .encrypted => x.encname

/-- The insertion that a deed was, if it was one. -/
def record (deed : Deed) : Option Record :=
  match deed.action, deed.inserted with
  | .insert _ name encname, some e => some ⟨e, name, encname⟩
  | _, _ => none

/-- The insertions among some deeds, the latest first. -/
def records (deeds : List Deed) : List Record := deeds.filterMap record

variable {deed : Deed} {x : Record}

theorem record_eq_some : deed.record = some x ↔
    deed.inserted = some x.entry ∧ ∃ label, deed.action = .insert label x.name x.encname := by
  obtain ⟨e, name, encname⟩ := x
  rw [record]
  cases deed.inserted with
  | none => cases deed.action <;> simp
  | some e' => cases deed.action <;> simp [and_comm, eq_comm]

end Deed

namespace Opened

variable {deeds : List Deed} {s : Opened} {others : Nat → Prop} {x : Deed.Record}

namespace Course

/-- The records are those of the entries inserted. -/
theorem map_records (course : Course deeds s) :
    (Deed.records deeds).map (·.entry) = Deed.insertions deeds := by
  induction course with
  | fresh => rfl
  | @act deeds s₁ action before ih =>
    obtain ⟨others, sound⟩ := before.sound
    rw [Deed.records, Deed.insertions, List.filterMap_cons, List.filterMap_cons]
    cases inserted : Deed.inserted ⟨s₁, action⟩ with
    | none =>
      have none : Deed.record ⟨s₁, action⟩ = none := by
        rw [Deed.record, inserted]
        cases action <;> rfl
      rw [none]
      exact ih
    | some e =>
      obtain ⟨label, name, encname, rfl⟩ := Deed.insert_of_inserted ⟨s₁, action⟩ sound inserted
      have recorded : Deed.record ⟨s₁, .insert label name encname⟩ = some ⟨e, name, encname⟩ := by
        rw [Deed.record, inserted]
      rw [recorded]
      exact congrArg (e :: ·) ih
  | rest _ _ _ ih => exact ih

/-- An entry has the names it was inserted under. -/
theorem named (course : Course deeds s) (hx : x ∈ Deed.records deeds) :
    (s.entries.entry x.entry).name = x.name ∧ (s.entries.entry x.entry).encname = x.encname := by
  obtain ⟨deed, was, recorded⟩ := List.mem_filterMap.mp hx
  obtain ⟨inserted, label, action⟩ := Deed.record_eq_some.mp recorded
  have keeps := course.keeps was action inserted
  exact ⟨keeps.name, keeps.encname⟩

theorem text (course : Course deeds s) {x : Deed.Record} (hx : x ∈ Deed.records deeds)
    {kind : NameKind} : (s.entries.entry x.entry).text kind = x.text kind := by
  obtain ⟨name, encname⟩ := course.named hx
  cases kind with
  | plain => exact name
  | encrypted => exact encname

end Course

/-- A search of a table for a name that accepts nothing but entries of the directory with that name
    finds the first one in the order of the table, whatever the geometry. -/
theorem find_order {order : List Nat} (linked : s.pool.Sound s.entries order) (kind : NameKind)
    (text : Bytes) {p : Nat → Bool}
    (only : ∀ e, p e = true → (s.entries.entry e).named s.dir.id kind text = true) :
    (s.pool.table kind).find (Digest.ofName s.dir.id text) p = order.find? p := by
  obtain ⟨table, kind_eq⟩ := linked.table kind
  refine table.find_eq fun e _ accepted => ?_
  have named := only e accepted
  rw [Entry.named, Bool.and_eq_true, beq_iff_eq, beq_iff_eq] at named
  rw [Table.hashOf, kind_eq, Entry.hash, named.1, named.2]

/-- It finds the latest insertion under that name that is still live, provided that it accepts all
    entries with the name that the directory holds. -/
theorem find_insertions (course : Course deeds s) (sound : s.Sound others)
    (apart : ∀ e, others e → (s.entries.entry e).dir ≠ s.dir.id) (kind : NameKind) (text : Bytes)
    {p : Nat → Bool}
    (only : ∀ e, p e = true → (s.entries.entry e).named s.dir.id kind text = true)
    (all : ∀ e, s.dir.Holds e → (s.entries.entry e).named s.dir.id kind text = true → p e = true) :
    (s.pool.table kind).find (Digest.ofName s.dir.id text) p =
      (Deed.insertions deeds).find? fun e =>
        (s.entries.entry e).live && (s.entries.entry e).text kind == text := by
  obtain ⟨order, linked, sorted, members⟩ := sound.linked
  rw [find_order linked kind text only]
  -- the table has more entries than the directory, but accepts none of the others
  refine find?_eq_of_descending sorted course.insertions_sorted fun e => ?_
  rw [members, Bool.and_eq_true, beq_iff_eq]
  constructor
  · rintro ⟨linked_entry, accepted⟩
    have named := only e accepted
    rw [Entry.named, Bool.and_eq_true, beq_iff_eq, beq_iff_eq] at named
    have held := linked_entry.resolve_left fun other => apart e other named.1
    obtain ⟨inserted, live⟩ := course.holds_iff.mp held
    exact ⟨inserted, live, named.2⟩
  · rintro ⟨inserted, live, same⟩
    have held := course.holds_iff.mpr ⟨inserted, live⟩
    refine ⟨.inr held, all e held ?_⟩
    rw [Entry.named, Bool.and_eq_true, beq_iff_eq, beq_iff_eq]
    exact ⟨sound.holds_own held, same⟩

/-- The latest insertion under a name can be told by the names that were inserted. -/
theorem find_records (course : Course deeds s) (kind : NameKind) (text : Bytes) :
    ((Deed.insertions deeds).find? fun e =>
        (s.entries.entry e).live && (s.entries.entry e).text kind == text) =
      ((Deed.records deeds).find? fun x =>
        (s.entries.entry x.entry).live && x.text kind == text).map (·.entry) := by
  rw [← course.map_records, List.find?_map]
  congr 1
  rw [← List.head?_filter, ← List.head?_filter]
  refine congrArg List.head? (List.filter_congr fun x hx => ?_)
  show ((s.entries.entry x.entry).live && (s.entries.entry x.entry).text kind == text) = _
  rw [course.text hx]

/-- A held entry of the directory's generation is found under its name, or another one is. -/
theorem findName_of_holds {e : Nat} (sound : s.Sound others) (held : s.dir.Holds e)
    (current : (s.entries.entry e).generation = s.dir.generation) :
    ∃ d, s.findName (s.entries.entry e).name = some d ∧
      (s.entries.entry d).name = (s.entries.entry e).name := by
  obtain ⟨order, linked, -, members⟩ := sound.linked
  have found : s.findName (s.entries.entry e).name = order.find? _ :=
    find_order linked .plain (s.entries.entry e).name fun d accepted => by
      rw [Bool.and_eq_true] at accepted
      exact accepted.1
  have some_found : (order.find? fun d =>
      (s.entries.entry d).named s.dir.id .plain (s.entries.entry e).name &&
        (s.entries.entry d).generation == s.dir.generation).isSome = true := by
    refine List.find?_isSome.mpr ⟨e, (members e).mpr (.inr held), ?_⟩
    rw [Entry.named, sound.holds_own held, current]
    simp [Entry.text]
  obtain ⟨d, first⟩ := Option.isSome_iff_exists.mp some_found
  have accepted := List.find?_some first
  rw [Bool.and_eq_true, Entry.named, Bool.and_eq_true, beq_iff_eq, beq_iff_eq] at accepted
  exact ⟨d, found.trans first, accepted.1.2⟩

/-- A plain name, while nothing is in doubt. -/
theorem findName_insertions (course : Course deeds s) (sound : s.Sound others)
    (apart : ∀ e, others e → (s.entries.entry e).dir ≠ s.dir.id) (clean : s.dir.staleEntries = [])
    (name : Bytes) :
    s.findName name = (Deed.insertions deeds).find? fun e =>
      (s.entries.entry e).live && (s.entries.entry e).text .plain == name := by
  refine find_insertions course sound apart .plain name (fun e accepted => ?_)
    (fun e held named => ?_)
  · rw [Bool.and_eq_true] at accepted
    exact accepted.1
  · -- nothing is stale, so the entry is active and of the present generation
    have active : e ∈ s.dir.activeEntries := held.resolve_right (by
      rw [clean]
      exact List.not_mem_nil)
    rw [Bool.and_eq_true, beq_iff_eq]
    exact ⟨named, sound.current active⟩

/-- An encrypted name, at any time. -/
theorem findEncname_insertions (course : Course deeds s) (sound : s.Sound others)
    (apart : ∀ e, others e → (s.entries.entry e).dir ≠ s.dir.id) (encname : Bytes) :
    s.findEncname encname = (Deed.insertions deeds).find? fun e =>
      (s.entries.entry e).live && (s.entries.entry e).text .encrypted == encname :=
  find_insertions course sound apart .encrypted encname (fun _ accepted => accepted)
    fun _ _ named => named

theorem findName_eq (course : Course deeds s) (sound : s.Sound others)
    (apart : ∀ e, others e → (s.entries.entry e).dir ≠ s.dir.id) (clean : s.dir.staleEntries = [])
    (name : Bytes) :
    s.findName name = ((Deed.records deeds).find? fun x =>
      (s.entries.entry x.entry).live && x.name == name).map (·.entry) :=
  (findName_insertions course sound apart clean name).trans (find_records course .plain name)

theorem findEncname_eq (course : Course deeds s) (sound : s.Sound others)
    (apart : ∀ e, others e → (s.entries.entry e).dir ≠ s.dir.id) (encname : Bytes) :
    s.findEncname encname = ((Deed.records deeds).find? fun x =>
      (s.entries.entry x.entry).live && x.encname == encname).map (·.entry) :=
  (findEncname_insertions course sound apart encname).trans
    (find_records course .encrypted encname)

end Opened

end NameCache
