/-
  Tables over the same entries are rows of numbers, newest first.

  `Rows` is what is left of a shelf when buckets, locks and links are taken away: the entries as
  they were made, and for each table the entries linked into it.  Linking an entry puts it in front
  of a row, unlinking takes it out of the row; no geometry is mentioned.

  1. **Edits** of a shelf (`Edit.run`) and of rows (`Rows.next`).  An entry has one link for each
     kind of name, so it may be linked into one table of a kind at a time.
  2. **What shows** (`Shelf.Shows`): where each hash belongs, and what every table finds and counts,
     as functions of its row.
  3. **Any number of edits** (`Shelf.Models.follows`).  What one table does to the links of an entry
     is nothing to the tables of the other kind, and the other tables of its kind do not have the
     entry.
-/
import NameCache.Proofs.Machine
import NameCache.Proofs.Table
import NameCache.Shelf

namespace NameCache

/-! ## Edits -/

/-- A change of a shelf. -/
inductive Shelf.Edit where
  /-- Make an entry. -/
  | make (dir : UInt64) (name encname : Bytes) (label : String)
  /-- Link an entry into a table. -/
  | insert (t e : Nat)
  /-- Unlink an entry from a table. -/
  | remove (t e : Nat)
  deriving DecidableEq, Repr

/-- What a change gives back. -/
inductive Shelf.Outcome where
  | made (e : Nat)
  | inserted
  | removed
  deriving DecidableEq, Repr

/-- Make one change. -/
def Shelf.Edit.run : Edit → Step Shelf Outcome
  | .make dir name encname label => Outcome.made <$> makeEntry dir name encname label
  | .insert t e => (fun _ => Outcome.inserted) <$> Shelf.insert t e
  | .remove t e => (fun _ => Outcome.removed) <$> Shelf.remove t e

open NameCache.Shelf

/-- Entries, and rows of some of them. -/
structure Rows where
  /-- The kind of name of each row. -/
  kinds : List NameKind
  /-- The entries as they were made. -/
  entries : Entries
  /-- The numbers in each row, newest first. -/
  row : Nat → List Nat

namespace Rows

/-- Empty rows of the given kinds. -/
def start (kinds : List NameKind) : Rows := ⟨kinds, #[], fun _ => []⟩

/-- Whether an entry is in a row of a kind. -/
def Linked (r : Rows) (kind : NameKind) (e : Nat) : Prop :=
  ∃ t, t < r.kinds.length ∧ r.kinds[t]? = some kind ∧ e ∈ r.row t

instance (r : Rows) (kind : NameKind) (e : Nat) : Decidable (r.Linked kind e) :=
  inferInstanceAs (Decidable (∃ t, t < r.kinds.length ∧ r.kinds[t]? = some kind ∧ e ∈ r.row t))

/-- Names are to be of a fit length; an entry is linked where it exists and is in no row of the
    kind; it is unlinked where it is linked. -/
def Admits (r : Rows) : Edit → Prop
  | .make _ name encname _ => Entry.FitName name ∧ Entry.FitName encname
  | .insert t e =>
    t < r.kinds.length ∧ e < r.entries.size ∧ ∀ kind ∈ r.kinds[t]?, ¬ r.Linked kind e
  | .remove t e => t < r.kinds.length ∧ e ∈ r.row t

instance (r : Rows) : (edit : Edit) → Decidable (r.Admits edit)
  | .make _ _ _ _ => inferInstanceAs (Decidable (_ ∧ _))
  | .insert _ _ => inferInstanceAs (Decidable (_ ∧ _ ∧ _))
  | .remove _ _ => inferInstanceAs (Decidable (_ ∧ _))

/-- What a change gives back. -/
def outcome (r : Rows) : Edit → Outcome
  | .make _ _ _ _ => .made r.entries.size
  | .insert _ _ => .inserted
  | .remove _ _ => .removed

/-- The rows with another row `t`. -/
def withRow (r : Rows) (t : Nat) (row : List Nat) : Rows :=
  { r with row := fun i => if i = t then row else r.row i }

/-- The rows after a change. -/
def next (r : Rows) : Edit → Rows
  | .make dir name encname label =>
    { r with entries := r.entries.push { dir, name, encname, key := some label } }
  | .insert t e => r.withRow t (e :: r.row t)
  | .remove t e => r.withRow t ((r.row t).erase e)

/-- The rows under changes. -/
def machine : Machine Rows Edit Outcome := ⟨Admits, outcome, next⟩

instance (r : Rows) (edit : Edit) : Decidable (machine.Admits r edit) :=
  inferInstanceAs (Decidable (r.Admits edit))

section withRow

variable {r : Rows} {t i d e : Nat} {row : List Nat} {kind other : NameKind}

theorem withRow_self : (r.withRow t row).row t = row := if_pos rfl

theorem withRow_ne (hi : i ≠ t) : (r.withRow t row).row i = r.row i := if_neg hi

/-- An entry that a new row treats as the old one did is in the same rows as before. -/
theorem mem_withRow (same : d ∈ row ↔ d ∈ r.row t) :
    d ∈ (r.withRow t row).row i ↔ d ∈ r.row i := by
  by_cases hi : i = t
  · subst hi
    rw [withRow_self]
    exact same
  · rw [withRow_ne hi]

theorem linked_withRow (same : d ∈ row ↔ d ∈ r.row t) :
    (r.withRow t row).Linked kind d ↔ r.Linked kind d :=
  exists_congr fun _ => and_congr_right fun _ => and_congr_right fun _ => mem_withRow same

/-- A new row changes nothing for the rows of another kind. -/
theorem linked_withRow_other (at_t : r.kinds[t]? = some kind) (ne : other ≠ kind) :
    (r.withRow t row).Linked other d ↔ r.Linked other d := by
  refine exists_congr fun i => and_congr_right fun _ => and_congr_right fun at_i => ?_
  have hi : i ≠ t := by
    rintro rfl
    exact ne (Option.some.inj (at_i.symm.trans at_t))
  rw [withRow_ne hi]

/-- An entry that is in no other row of the kind is linked in it exactly if it is in the new row. -/
theorem linked_withRow_alone (at_t : r.kinds[t]? = some kind)
    (alone : ∀ i, i ≠ t → r.kinds[i]? = some kind → e ∉ r.row i) :
    (r.withRow t row).Linked kind e ↔ e ∈ row := by
  constructor
  · rintro ⟨i, -, at_i, he⟩
    by_cases hi : i = t
    · rw [hi, withRow_self] at he
      exact he
    · rw [withRow_ne hi] at he
      exact absurd he (alone i hi at_i)
  · intro here
    obtain ⟨inside, -⟩ := List.getElem?_eq_some_iff.mp at_t
    exact ⟨t, inside, at_t, withRow_self.symm ▸ here⟩

end withRow

end Rows

/-! ## What shows -/

/-- A kind of name, a number of buckets and a number of locks. -/
abbrev Shelf.Plan := NameKind × Nat × Nat

/-- All that a table of a plan shows, told by its row. -/
structure Table.Lists (table : Table) (plan : Plan) (entries : Entries) (row : List Nat) :
    Prop where
  shape : table.shape = plan
  bucketIndex : ∀ hash, table.bucketIndex hash = hash.toNat &&& (plan.2.1 - 1)
  lockIndex : ∀ hash, table.lockIndex hash = table.bucketIndex hash % plan.2.2
  lock_masked : ∀ hash, table.lockIndex hash = hash.toNat &&& (plan.2.2 - 1)
  list_shifted : ∀ hash, table.listIndex hash = table.bucketIndex hash >>> plan.2.2.log2
  /-- Two hashes are on the same list of the same stripe if they have the same bucket. -/
  same_place : ∀ hash hash',
    (table.lockIndex hash = table.lockIndex hash' ∧
        table.listIndex hash = table.listIndex hash') ↔
      hash.toNat &&& (plan.2.1 - 1) = hash'.toNat &&& (plan.2.1 - 1)
  /-- The stripe and the list of a hash exist. -/
  inside : ∀ hash, ∃ stripe, table.stripes[table.lockIndex hash]? = some stripe ∧
    table.listIndex hash < stripe.heads.size
  find : ∀ hash p, table.find hash p = row.find? fun e =>
    ((entries.entry e).hash plan.1).toNat &&& (plan.2.1 - 1) = hash.toNat &&& (plan.2.1 - 1) ∧ p e
  /-- The geometry does not matter to a search for entries of one hash. -/
  find_exact : ∀ hash p, (∀ e ∈ row, p e → (entries.entry e).hash plan.1 = hash) →
    table.find hash p = row.find? p
  length : table.length = row.length
  once : row.Nodup

/-- All that a shelf shows, told by rows. -/
structure Shelf.Shows (s : Shelf) (plans : List Plan) (r : Rows) : Prop where
  entries : s.entries.map Entry.bare = r.entries
  tables : s.tables.size = plans.length
  lists : ∀ (t : Nat) (table : Table) plan, s.tables[t]? = some table → plans[t]? = some plan →
    table.Lists plan r.entries (r.row t)
  /-- An entry is linked in a kind if it is in a row of the kind. -/
  linked : ∀ kind e, ((s.entries.entry e).bucketNode kind).isSome ↔ r.Linked kind e

namespace Table

variable {t : Table} {entries : Entries} {row : List Nat}

/-- The bucket of a hash is cut out by a mask. -/
theorem bucketIndex_eq_and (g : Geometry t.buckets t.locks) (hash : UInt32) :
    t.bucketIndex hash = hash.toNat &&& (t.buckets - 1) := by
  obtain ⟨⟨k, hk⟩, -⟩ := g
  rw [bucketIndex, hk, Nat.and_two_pow_sub_one_eq_mod]

/-- So is its lock. -/
theorem lockIndex_eq_and (g : Geometry t.buckets t.locks) (hash : UInt32) :
    t.lockIndex hash = hash.toNat &&& (t.locks - 1) := by
  obtain ⟨-, ⟨k, hk⟩, -⟩ := g
  rw [lockIndex, hk, Nat.and_two_pow_sub_one_eq_mod]

/-- What the lock does not take of the bits of a bucket is the list. -/
theorem listIndex_eq_shiftRight (g : Geometry t.buckets t.locks) (hash : UInt32) :
    t.listIndex hash = t.bucketIndex hash >>> t.locks.log2 := by
  obtain ⟨-, ⟨k, hk⟩, -⟩ := g
  rw [listIndex, hk, Nat.log2_two_pow, Nat.shiftRight_eq_div_pow]

/-- A sound table shows its order. -/
theorem Sound.shows (sound : t.Sound entries row) :
    t.Lists t.shape (entries.map Entry.bare) row := by
  have hash_bare : ∀ e, ((Entries.entry (entries.map Entry.bare) e).hash t.kind) =
      t.hashOf entries e := by
    intro e
    rw [Entries.entry_map_bare, Entry.hash_bare]
    rfl
  have mask := bucketIndex_eq_and sound.geometry
  constructor
  case shape => rfl
  case bucketIndex => exact mask
  case lockIndex => exact lockIndex_eq sound.geometry
  case lock_masked => exact lockIndex_eq_and sound.geometry
  case list_shifted => exact listIndex_eq_shiftRight sound.geometry
  case same_place =>
    intro hash hash'
    show _ ↔ hash.toNat &&& (t.buckets - 1) = hash'.toNat &&& (t.buckets - 1)
    rw [same_place_iff sound.geometry, mask, mask]
  case inside =>
    intro hash
    obtain ⟨stripe, there⟩ := sound.stripe hash
    refine ⟨stripe, there, ?_⟩
    rw [(sound.lists _ stripe there).2]
    exact listIndex_lt sound.geometry hash
  case find =>
    intro hash p
    rw [Table.find, sound.bucket_eq, List.find?_filter]
    refine congrArg (List.find? · row) (funext fun e => ?_)
    show decide (decide (t.bucketIndex (t.hashOf entries e) = t.bucketIndex hash) = true ∧ p e) =
      decide (((Entries.entry (entries.map Entry.bare) e).hash t.kind).toNat &&& (t.buckets - 1) =
        hash.toNat &&& (t.buckets - 1) ∧ p e)
    rw [hash_bare, ← mask, ← mask]
    simp only [decide_eq_true_eq]
  case find_exact =>
    intro hash p accepts
    refine sound.find_eq fun e he accepted => ?_
    rw [← hash_bare]
    exact accepts e he accepted
  case length => exact sound.length_eq
  case once => exact sound.nodup

end Table

/-! ## Rows in tables -/

namespace Shelf

variable {plans : List Plan} {s : Shelf} {r : Rows} {t e : Nat} {table table' : Table}

/-- The tables hold the rows, and an entry is in one row of a kind at most. -/
structure Models (plans : List Plan) (s : Shelf) (r : Rows) : Prop where
  kinds : r.kinds = plans.map (·.1)
  entries : s.entries.map Entry.bare = r.entries
  shapes : ∀ t : Nat, s.tables[t]?.map Table.shape = plans[t]?
  sound : ∀ (t : Nat) (table : Table), s.tables[t]? = some table →
    table.Sound s.entries (r.row t)
  known : ∀ t, ∀ e ∈ r.row t, e < r.entries.size
  apart : ∀ i j, i ≠ j → i < r.kinds.length → r.kinds[i]? = r.kinds[j]? →
    ∀ e ∈ r.row i, e ∉ r.row j
  linked : ∀ kind e, ((s.entries.entry e).bucketNode kind).isSome ↔ r.Linked kind e

theorem entry_run (he : e < s.entries.size) : entry e s = .ok (s.entries.entry e) s := by
  rw [entry, Entries.getElem?_of_lt he]

theorem onTable_of_ok {α : Type} {op : Step (Indexed Table) α} {a : α} {entries : Entries}
    (there : s.tables[t]? = some table) (run : op ⟨s.entries, table⟩ = .ok a ⟨entries, table'⟩) :
    onTable t op s = .ok a ⟨entries, s.tables.setIfInBounds t table'⟩ := by
  have found : Shelf.table t s = .ok table s := by rw [Shelf.table, there]
  rw [onTable, Step.bind_of_ok found, Step.focus, run]

/-- Tables are made if the plans are fit for them. -/
theorem create_run (fit : ∀ plan ∈ plans, Table.Geometry plan.2.1 plan.2.2) :
    create plans =
      .ok ⟨#[], (plans.map fun plan => Table.empty plan.1 plan.2.1 plan.2.2).toArray⟩ := by
  have all : (plans.mapM fun plan : Plan => Table.create plan.1 plan.2.1 plan.2.2) =
      .ok (plans.map fun plan => Table.empty plan.1 plan.2.1 plan.2.2) := by
    induction plans with
    | nil => rfl
    | cons plan rest ih =>
      have first : Table.create plan.1 plan.2.1 plan.2.2 =
          .ok (Table.empty plan.1 plan.2.1 plan.2.2) := if_pos (fit plan List.mem_cons_self)
      rw [List.mapM_cons, first, ih fun other there => fit other (List.mem_cons_of_mem _ there)]
      rfl
  show (List.mapM _ plans >>= _) = _
  rw [all]
  rfl

namespace Models

theorem kind (models : Models plans s r) (there : s.tables[t]? = some table) :
    r.kinds[t]? = some table.kind := by
  have plan := models.shapes t
  rw [there] at plan
  rw [models.kinds, List.getElem?_map, ← plan]
  rfl

theorem exists_table (models : Models plans s r) (ht : t < r.kinds.length) :
    ∃ table, s.tables[t]? = some table := by
  rw [models.kinds, List.length_map] at ht
  have plan := models.shapes t
  rw [List.getElem?_eq_getElem ht, Option.map_eq_some_iff] at plan
  obtain ⟨table, there, -⟩ := plan
  exact ⟨table, there⟩

theorem size (models : Models plans s r) : r.entries.size = s.entries.size := by
  rw [← models.entries, Array.size_map]

theorem start (fit : ∀ plan ∈ plans, Table.Geometry plan.2.1 plan.2.2) :
    Models plans ⟨#[], (plans.map fun plan => Table.empty plan.1 plan.2.1 plan.2.2).toArray⟩
      (.start (plans.map (·.1))) := by
  constructor
  case kinds => rfl
  case entries => exact Array.map_empty
  case shapes =>
    intro t
    rw [List.getElem?_toArray, List.getElem?_map]
    cases plans[t]? <;> rfl
  case sound =>
    intro t table there
    rw [List.getElem?_toArray, List.getElem?_map, Option.map_eq_some_iff] at there
    obtain ⟨plan, among, rfl⟩ := there
    exact Table.sound_empty (fit plan (List.mem_of_getElem? among)) _
  case known => exact fun t e he => absurd he List.not_mem_nil
  case apart => exact fun i j _ _ _ e he => absurd he List.not_mem_nil
  case linked =>
    intro kind e
    constructor
    · cases kind <;> exact fun some => absurd some Bool.false_ne_true
    · rintro ⟨t, -, -, he⟩
      exact absurd he List.not_mem_nil

/-- Making an entry changes no row. -/
theorem make (models : Models plans s r) (dir : UInt64) {name encname : Bytes} (label : String)
    (fit : Entry.FitName name ∧ Entry.FitName encname) :
    ∃ s', makeEntry dir name encname label s = .ok r.entries.size s' ∧
      Models plans s' (r.next (.make dir name encname label)) := by
  have created : Entry.create dir name encname label =
      .ok { dir, name, encname, key := some label } := if_pos fit
  have unlinked : ∀ kind, ¬ r.Linked kind s.entries.size := by
    rintro kind ⟨t, -, -, he⟩
    have := models.known t _ he
    rw [models.size] at this
    omega
  refine ⟨{ s with entries := s.entries.push { dir, name, encname, key := some label } }, ?_, ?_⟩
  · rw [makeEntry, created, models.size]
    rfl
  constructor
  case kinds => exact models.kinds
  case entries =>
    show (s.entries.push _).map Entry.bare = r.entries.push _
    rw [Array.map_push, models.entries]
    rfl
  case shapes => exact models.shapes
  case sound =>
    intro t table there
    have before : ∀ e ∈ r.row t, e < s.entries.size := by
      intro e he
      rw [← models.size]
      exact models.known t e he
    refine (models.sound t table there).congr (fun e he => ?_) fun e he => ?_
    · rw [Entries.entry_push_lt (before e he)]
    · rw [Entries.entry_push_lt (before e he)]
  case known =>
    intro t e he
    show e < (r.entries.push _).size
    rw [Array.size_push]
    have := models.known t e he
    omega
  case apart => exact models.apart
  case linked =>
    intro kind e
    show ((Entries.entry (s.entries.push _) e).bucketNode kind).isSome ↔ r.Linked kind e
    rcases Nat.lt_trichotomy e s.entries.size with old | rfl | beyond
    · rw [Entries.entry_push_lt old]
      exact models.linked kind e
    · rw [Entries.entry_push_self]
      constructor
      · cases kind <;> exact fun some => absurd some Bool.false_ne_true
      · exact fun linked => absurd linked (unlinked kind)
    · rw [Entries.entry_of_le (by rw [Array.size_push]; omega),
        ← Entries.entry_of_le (Nat.le_of_lt beyond)]
      exact models.linked kind e

/-- A table was changed in one entry, which no other row of its kind has. -/
theorem relink (models : Models plans s r) (there : s.tables[t]? = some table)
    {node : Option Nat} {row : List Nat} (he : e < s.entries.size)
    (sound : table'.Sound (s.entries.modify e (·.withBucketNode table.kind node)) row)
    (shape : table.SameShape table') (others : ∀ d, d ≠ e → (d ∈ row ↔ d ∈ r.row t))
    (mine : node.isSome ↔ e ∈ row)
    (alone : ∀ i, i ≠ t → r.kinds[i]? = some table.kind → e ∉ r.row i) :
    Models plans ⟨s.entries.modify e (·.withBucketNode table.kind node),
      s.tables.setIfInBounds t table'⟩ (r.withRow t row) := by
  obtain ⟨inside, -⟩ := Array.getElem?_eq_some_iff.mp there
  have tables : ∀ i, (s.tables.setIfInBounds t table')[i]? =
      if i = t then some table' else s.tables[i]? := by
    intro i
    rw [Array.getElem?_setIfInBounds]
    by_cases hi : i = t
    · rw [if_pos hi.symm, if_pos hi, if_pos inside]
    · rw [if_neg (fun h => hi h.symm), if_neg hi]
  have kind := models.kind there
  constructor
  case kinds => exact models.kinds
  case entries =>
    rw [Entries.map_bare_modify_links fun x => by cases table.kind <;> rfl]
    exact models.entries
  case shapes =>
    intro i
    show Option.map _ ((s.tables.setIfInBounds t table')[i]?) = _
    rw [tables]
    by_cases hi : i = t
    · subst hi
      rw [if_pos rfl, ← models.shapes i, there]
      obtain ⟨same_kind, same_buckets, same_locks⟩ := shape
      show some (_, _, _) = some (_, _, _)
      rw [same_kind, same_buckets, same_locks]
    · rw [if_neg hi]
      exact models.shapes i
  case sound =>
    intro i other at_i
    change (s.tables.setIfInBounds t table')[i]? = some other at at_i
    rw [tables] at at_i
    by_cases hi : i = t
    · subst hi
      rw [if_pos rfl] at at_i
      obtain rfl := Option.some.inj at_i
      rw [Rows.withRow_self]
      exact sound
    · rw [if_neg hi] at at_i
      rw [Rows.withRow_ne hi]
      refine (models.sound i other at_i).congr (fun d _ => ?_) fun d hd => ?_
      · exact Entries.property_modify (·.hash _) (fun _ => Entry.hash_withBucketNode) d
      · by_cases same : other.kind = table.kind
        · have hne : d ≠ e := by
            rintro rfl
            exact alone i hi (same ▸ models.kind at_i) hd
          rw [Entries.entry_modify_ne hne]
        · exact Entries.property_modify (·.bucketNode _)
            (fun _ => Entry.bucketNode_withBucketNode_ne same) d
  case known =>
    intro i d hd
    show d < r.entries.size
    by_cases same : d = e
    · rw [same, models.size]
      exact he
    · exact models.known i d ((Rows.mem_withRow (others d same)).mp hd)
  case apart =>
    intro i j hij hi kinds d hd
    by_cases same : d = e
    · subst same
      by_cases hj : j = t
      · subst hj
        rw [Rows.withRow_ne hij] at hd
        exact absurd hd (alone i hij (kinds.trans kind))
      · rw [Rows.withRow_ne hj]
        by_cases hit : i = t
        · exact alone j hj (kinds.symm.trans (hit ▸ kind))
        · rw [Rows.withRow_ne hit] at hd
          exact models.apart i j hij hi kinds d hd
    · rw [Rows.mem_withRow (others d same)]
      exact models.apart i j hij hi kinds d ((Rows.mem_withRow (others d same)).mp hd)
  case linked =>
    intro k d
    by_cases same : d = e
    · subst same
      rw [Entries.entry_modify_self he]
      by_cases hk : k = table.kind
      · rw [hk, Entry.bucketNode_withBucketNode_self, Rows.linked_withRow_alone kind alone]
        exact mine
      · rw [Entry.bucketNode_withBucketNode_ne hk, Rows.linked_withRow_other kind hk]
        exact models.linked k d
    · rw [Entries.entry_modify_ne same, Rows.linked_withRow (others d same)]
      exact models.linked k d

/-- Linking an entry that is in no row of the kind puts it in front of the row. -/
theorem insert (models : Models plans s r) (fit : r.Admits (.insert t e)) :
    ∃ s', Shelf.insert t e s = .ok () s' ∧ Models plans s' (r.next (.insert t e)) := by
  obtain ⟨ht, he, free⟩ := fit
  rw [models.size] at he
  obtain ⟨table, there⟩ := models.exists_table ht
  have kind := models.kind there
  have unlinked : ¬ r.Linked table.kind e := free table.kind kind
  have new : e ∉ r.row t := fun here => unlinked ⟨t, ht, kind, here⟩
  obtain ⟨n, table', run, sound, shape⟩ := (models.sound t table there).insert_spec he new
  refine ⟨_, ?_, models.relink there he sound shape (fun d hd => ?_) ?_ fun i hi at_i here => ?_⟩
  · rw [Shelf.insert, Step.bind_of_ok (entry_run he)]
    exact onTable_of_ok there run
  · rw [List.mem_cons, or_iff_right hd]
  · exact ⟨fun _ => List.mem_cons_self, fun _ => rfl⟩
  · obtain ⟨hlt, -⟩ := List.getElem?_eq_some_iff.mp at_i
    exact unlinked ⟨i, hlt, at_i, here⟩

/-- Unlinking an entry takes it out of the row. -/
theorem remove (models : Models plans s r) (fit : r.Admits (.remove t e)) :
    ∃ s', Shelf.remove t e s = .ok () s' ∧ Models plans s' (r.next (.remove t e)) := by
  obtain ⟨ht, here⟩ := fit
  have he : e < s.entries.size := models.size ▸ models.known t e here
  obtain ⟨table, there⟩ := models.exists_table ht
  have sound := models.sound t table there
  obtain ⟨table', run, sound', shape⟩ := sound.remove_spec here
  refine ⟨_, ?_, models.relink there he sound' shape (fun d hd => ?_) ?_ fun i hi at_i => ?_⟩
  · rw [Shelf.remove, Step.bind_of_ok (entry_run he)]
    exact onTable_of_ok there run
  · exact List.mem_erase_of_ne hd
  · exact ⟨fun some => absurd some Bool.false_ne_true,
      fun left => absurd left sound.nodup.not_mem_erase⟩
  · exact models.apart t i (fun h => hi h.symm) ht ((models.kind there).trans at_i.symm) e here

/-- The changes of a shelf follow those of rows. -/
theorem follows : Machine.Follows Edit.run Rows.machine (Models plans) := by
  intro s r edit models fit
  cases edit with
  | make dir name encname label =>
    obtain ⟨s', run, models'⟩ := models.make dir label fit
    exact ⟨s', Step.map_of_ok run, models'⟩
  | insert t e =>
    obtain ⟨s', run, models'⟩ := models.insert fit
    exact ⟨s', Step.map_of_ok run, models'⟩
  | remove t e =>
    obtain ⟨s', run, models'⟩ := models.remove fit
    exact ⟨s', Step.map_of_ok run, models'⟩

/-- What is modelled shows. -/
theorem shows (models : Models plans s r) : s.Shows plans r where
  entries := models.entries
  tables := by
    apply Nat.le_antisymm
    · refine Nat.not_lt.mp fun more => ?_
      have := models.shapes plans.length
      rw [Array.getElem?_eq_getElem more, List.getElem?_eq_none (Nat.le_refl _)] at this
      exact absurd this (by simp)
    · refine Nat.not_lt.mp fun more => ?_
      have := models.shapes s.tables.size
      rw [List.getElem?_eq_getElem more, Array.getElem?_eq_none (Nat.le_refl _)] at this
      exact absurd this (by simp)
  lists := by
    intro t table plan there planned
    have shape := models.shapes t
    rw [there, planned] at shape
    obtain rfl : table.shape = plan := Option.some.inj shape
    rw [← models.entries]
    exact (models.sound t table there).shows
  linked := models.linked

end Models

/-- Tables do what rows do, whatever the kinds and the geometries, and whatever the changes, as long
    as an entry is linked where it is in no row of the kind and unlinked where it is linked.  No
    change stops on a fault, and afterwards the tables show the rows.  With other geometries the
    same changes give the same, and a search for entries of one hash finds the same. -/
theorem edits_refine_rows (plans : List Plan)
    (geometry : ∀ plan ∈ plans, Table.Geometry plan.2.1 plan.2.2) (edits : List Edit)
    (fit : Rows.machine.AdmitsAll (.start (plans.map (·.1))) edits) :
    ∃ s₀ s, create plans = .ok s₀ ∧
      edits.mapM Edit.run s₀ = .ok (Rows.machine.outcomes (.start (plans.map (·.1))) edits) s ∧
      s.Shows plans (Rows.machine.after (.start (plans.map (·.1))) edits) ∧
      ∀ plans' : List Plan, plans'.map (·.1) = plans.map (·.1) →
        (∀ plan ∈ plans', Table.Geometry plan.2.1 plan.2.2) →
        ∃ s₀' s', create plans' = .ok s₀' ∧
          edits.mapM Edit.run s₀' =
            .ok (Rows.machine.outcomes (.start (plans.map (·.1))) edits) s' ∧
          s'.Shows plans' (Rows.machine.after (.start (plans.map (·.1))) edits) ∧
          ∀ (t : Nat) (table table' : Table) hash p,
            s.tables[t]? = some table → s'.tables[t]? = some table' →
            (∀ e, p e → (s.entries.entry e).hash table.kind = hash) →
            table.find hash p = table'.find hash p := by
  obtain ⟨s, run, models⟩ := Models.follows.runs (Models.start geometry) fit
  refine ⟨_, s, create_run geometry, run, models.shows, fun plans' kinds geometry' => ?_⟩
  obtain ⟨s', run', models'⟩ :=
    Models.follows.runs (Models.start geometry') (kinds.symm ▸ fit)
  rw [kinds] at run' models'
  refine ⟨_, s', create_run geometry', run', models'.shows, ?_⟩
  intro t table table' hash p there there' accepts
  have same_kind : table'.kind = table.kind :=
    Option.some.inj ((models'.kind there').symm.trans (models.kind there))
  have same_entry : ∀ e, (s'.entries.entry e).bare = (s.entries.entry e).bare := by
    intro e
    rw [← Entries.entry_map_bare, ← Entries.entry_map_bare, models.entries, models'.entries]
  -- both tables find the first in the same row
  rw [(models.sound t table there).find_eq fun e _ ok => accepts e ok]
  refine ((models'.sound t table' there').find_eq fun e _ ok => ?_).symm
  rw [← accepts e ok, Table.hashOf, same_kind, ← Entry.hash_bare, same_entry, Entry.hash_bare]

/-- Three entries in two tables of plain names and one of encrypted names, one of them moved from
    the first table to the second. -/
theorem edits_refine_rows_three_tables :
    ∃ s₀ s, create [(.plain, 1, 1), (.plain, 8, 2), (.encrypted, 4, 4)] = .ok s₀ ∧
      List.mapM Edit.run [.make 1 [97] [65] "k", .make 1 [98] [66] "k", .make 2 [97] [65] "k",
        .insert 0 0, .insert 0 1, .insert 2 1, .insert 0 2, .remove 0 1, .insert 1 1] s₀ =
          .ok [.made 0, .made 1, .made 2, .inserted, .inserted, .inserted, .inserted, .removed,
            .inserted] s ∧
      ∃ table, s.tables[0]? = some table ∧ table.length = 2 ∧
        ∀ hash, table.find hash (fun _ => true) = some 2 := by
  obtain ⟨s₀, s, created, run, shows, -⟩ :=
    edits_refine_rows [(.plain, 1, 1), (.plain, 8, 2), (.encrypted, 4, 4)] (by decide)
      [.make 1 [97] [65] "k", .make 1 [98] [66] "k", .make 2 [97] [65] "k", .insert 0 0,
        .insert 0 1, .insert 2 1, .insert 0 2, .remove 0 1, .insert 1 1] (by decide)
  have inside : 0 < s.tables.size := by
    rw [shows.tables]
    decide
  have lists := shows.lists 0 s.tables[0] (.plain, 1, 1) (Array.getElem?_eq_getElem inside) rfl
  refine ⟨s₀, s, created, run, s.tables[0], Array.getElem?_eq_getElem inside, lists.length, ?_⟩
  intro hash
  rw [lists.find]
  show List.find? _ [2, 0] = some 2
  rw [List.find?_cons_of_pos (by simp)]

end Shelf

end NameCache
