/-
  Entries under their numbers: what an edit of one entry, or a new entry, does to the others.

  An edit of a link changes neither the names nor the key nor the generation, and of the three links
  only its own.  `Entry.bare` is what is left of an entry when its links are forgotten.
-/
import NameCache.Entry

namespace NameCache

namespace Entry

variable {entry : Entry} {kind other : NameKind} {node : Option Nat}

@[simp] theorem hash_withBucketNode :
    (entry.withBucketNode kind node).hash other = entry.hash other := by
  cases kind <;> cases other <;> rfl

@[simp] theorem bucketNode_withBucketNode_self :
    (entry.withBucketNode kind node).bucketNode kind = node := by
  cases kind <;> rfl

theorem bucketNode_withBucketNode_ne (h : other ≠ kind) :
    (entry.withBucketNode kind node).bucketNode other = entry.bucketNode other := by
  cases kind <;> cases other <;> first | rfl | exact absurd rfl h

/-- The entry without its links. -/
def bare (entry : Entry) : Entry :=
  { entry with dirNode := none, nameNode := none, encnameNode := none }

@[simp] theorem live_bare : entry.bare.live = entry.live := rfl

@[simp] theorem hash_bare : entry.bare.hash kind = entry.hash kind := by
  cases kind <;> rfl

end Entry

namespace Entries

variable {entries : Entries} {e d : Nat} {f : Entry → Entry}

theorem getElem?_of_lt (he : e < entries.size) : entries[e]? = some (entries.entry e) := by
  rw [entry, Array.getElem?_eq_getElem he]
  rfl

@[simp] theorem size_modify : (entries.modify e f).size = entries.size := Array.size_modify

theorem entry_modify_self (he : e < entries.size) :
    Entries.entry (entries.modify e f) e = f (entries.entry e) := by
  rw [entry, Array.getElem?_modify, if_pos rfl, getElem?_of_lt he]
  rfl

theorem entry_modify_ne (h : d ≠ e) :
    Entries.entry (entries.modify e f) d = entries.entry d := by
  rw [entry, Array.getElem?_modify, if_neg (fun heq => h heq.symm)]
  rfl

theorem entry_push_lt {x : Entry} (h : d < entries.size) :
    Entries.entry (entries.push x) d = entries.entry d := by
  rw [entry, Array.getElem?_push, if_neg (by omega)]
  rfl

@[simp] theorem entry_push_self {x : Entry} :
    Entries.entry (entries.push x) entries.size = x := by
  rw [entry, Array.getElem?_push, if_pos rfl]
  rfl

theorem entry_of_le (h : entries.size ≤ d) : entries.entry d = default := by
  rw [entry, Array.getElem?_eq_none h]
  rfl

/-- Beyond the last entry nothing is live. -/
theorem lt_of_live (live : (entries.entry e).live = true) : e < entries.size := by
  refine Nat.not_le.mp fun beyond => ?_
  rw [entry_of_le beyond] at live
  exact Bool.false_ne_true live

/-- Two edits of one entry that agree on a property of entries agree on it for every entry. -/
theorem property_modify_congr {β : Type} {g : Entry → Entry} (p : Entry → β)
    (h : ∀ x, p (f x) = p (g x)) (d : Nat) :
    p (Entries.entry (entries.modify e f) d) = p (Entries.entry (entries.modify e g) d) := by
  by_cases hd : d = e
  · subst hd
    by_cases he : d < entries.size
    · rw [entry_modify_self he, entry_modify_self he, h]
    · rw [entry_of_le (by rw [size_modify]; omega), entry_of_le (by rw [size_modify]; omega)]
  · rw [entry_modify_ne hd, entry_modify_ne hd]

/-- An edit that respects a property of entries leaves that property of every entry alone. -/
theorem property_modify {β : Type} (p : Entry → β) (h : ∀ x, p (f x) = p x) (d : Nat) :
    p (Entries.entry (entries.modify e f) d) = p (entries.entry d) := by
  by_cases hd : d = e
  · subst hd
    by_cases he : d < entries.size
    · rw [entry_modify_self he, h]
    · rw [entry_of_le (by rw [size_modify]; omega), entry_of_le (by omega)]
  · rw [entry_modify_ne hd]

theorem modify_modify (entries : Entries) (e : Nat) (f g : Entry → Entry) :
    (entries.modify e f).modify e g = entries.modify e (g ∘ f) := by
  apply Array.ext_getElem?
  intro i
  rw [Array.getElem?_modify, Array.getElem?_modify, Array.getElem?_modify]
  by_cases hi : e = i
  · rw [if_pos hi, if_pos hi, if_pos hi, Option.map_map]
  · rw [if_neg hi, if_neg hi, if_neg hi]

/-! ## Entries without their links -/

@[simp] theorem entry_map_bare :
    Entries.entry (entries.map Entry.bare) d = (entries.entry d).bare := by
  rw [entry, entry, Array.getElem?_map]
  cases entries[d]? <;> rfl

/-- An edit, and what it comes to once the links are forgotten. -/
theorem map_bare_modify {g : Entry → Entry} (h : ∀ x, (f x).bare = g x.bare) :
    (entries.modify e f).map Entry.bare = (entries.map Entry.bare).modify e g := by
  apply Array.ext_getElem?
  intro i
  rw [Array.getElem?_map, Array.getElem?_modify, Array.getElem?_modify, Array.getElem?_map]
  by_cases hi : e = i
  · rw [if_pos hi, if_pos hi, Option.map_map, Option.map_map]
    exact congrArg (Option.map · _) (funext h)
  · rw [if_neg hi, if_neg hi]

theorem map_bare_stamp (generation : UInt64) :
    (entries.modify e fun entry => { entry with generation }).map Entry.bare =
      (entries.map Entry.bare).modify e fun entry => { entry with generation } :=
  map_bare_modify (f := fun entry => { entry with generation })
    (g := fun entry => { entry with generation }) fun _ => rfl

/-- An edit of links alone is none once the links are forgotten. -/
theorem map_bare_modify_links (h : ∀ x, (f x).bare = x.bare) :
    (entries.modify e f).map Entry.bare = entries.map Entry.bare := by
  apply Array.ext_getElem?
  intro i
  rw [Array.getElem?_map, Array.getElem?_modify, Array.getElem?_map]
  by_cases hi : e = i
  · rw [if_pos hi, Option.map_map]
    exact congrArg (Option.map · _) (funext h)
  · rw [if_neg hi]

end Entries

end NameCache
