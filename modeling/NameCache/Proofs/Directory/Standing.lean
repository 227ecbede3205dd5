/-
  Entries standing on the two lists of a directory.

  `Standing lists entries` says that whatever is on a list is there under its own link: the entry
  names the node it is found at.  One link cannot name two nodes, so an entry stands in one place at
  most, and taking its node away takes the entry away.  Putting an entry on a list, moving it and
  removing it are then operations on plain lists of entries.
-/
import NameCache.Directory.Basic
import NameCache.Proofs.Entries
import NameCache.Proofs.SlotLists

namespace NameCache

namespace Side

theorem list_lt (side : Side) : side.list < 2 := by
  cases side <;> decide

theorem other_list_ne (side : Side) : side.other.list ≠ side.list := by
  cases side <;> decide

@[simp] theorem other_other (side : Side) : side.other.other = side := by
  cases side <;> rfl

theorem eq_or_other {l : Nat} (side : Side) (hl : l < 2) :
    l = side.list ∨ l = side.other.list := by
  cases side <;> simp only [list, other] <;> omega

end Side

/-- Everything on the lists is there under its own link. -/
structure Standing (lists : SlotLists Nat) (entries : Entries) : Prop where
  sound : lists.Sound
  two : lists.heads.size = 2
  link : ∀ l n e, (n, e) ∈ lists.chain l → (entries.entry e).dirNode = some n

namespace Standing

variable {lists : SlotLists Nat} {entries entries' : Entries} {e n k l : Nat}

theorem empty (entries : Entries) : Standing (.empty 2) entries where
  sound := SlotLists.sound_empty 2
  two := Array.size_replicate
  link := fun _ _ _ hm => absurd hm List.not_mem_nil

/-- The links of the listed entries are all that matters. -/
theorem congr (standing : Standing lists entries)
    (same : ∀ l e, e ∈ lists.values l → (entries'.entry e).dirNode = (entries.entry e).dirNode) :
    Standing lists entries' where
  sound := standing.sound
  two := standing.two
  link := fun l n e hm =>
    (same l e (SlotLists.mem_values.mpr ⟨n, hm⟩)).trans (standing.link l n e hm)

theorem stamp (standing : Standing lists entries) (e : Nat) (generation : UInt64) :
    Standing lists (entries.modify e fun entry => { entry with generation }) :=
  standing.congr fun _ d _ => Entries.property_modify
    (f := fun entry => { entry with generation }) Entry.dirNode (fun _ => rfl) d

/-- A node and its entry determine each other. -/
theorem only (standing : Standing lists entries) (hm : (n, e) ∈ lists.chain k) (l : Nat) :
    ∀ x ∈ lists.chain l, x.1 = n ↔ x.2 = e := by
  rintro ⟨m, d⟩ hx
  constructor
  · rintro rfl
    exact (standing.sound.unique hm hx).2
  · rintro rfl
    have hlink := standing.link l m d hx
    rw [standing.link k n d hm] at hlink
    exact (Option.some.inj hlink).symm

/-- An entry is on one list only. -/
theorem unique (standing : Standing lists entries) (hk : e ∈ lists.values k)
    (hl : e ∈ lists.values l) : l = k := by
  obtain ⟨n, hn⟩ := SlotLists.mem_values.mp hk
  obtain ⟨m, hm⟩ := SlotLists.mem_values.mp hl
  obtain rfl : m = n := (standing.only hn l (m, e) hm).mpr rfl
  exact (standing.sound.unique hn hm).1

/-- An entry is on a list once only. -/
theorem nodup (standing : Standing lists entries) (l : Nat) : (lists.values l).Nodup := by
  have numbers := standing.sound.nodup l
  rw [List.Nodup, List.pairwise_map] at numbers
  rw [SlotLists.values, List.Nodup, List.pairwise_map]
  refine List.Pairwise.imp_of_mem (fun {x y} hx hy hne heq => hne ?_) numbers
  exact (standing.only hy l x hx).mpr heq

theorem values_lt (standing : Standing lists entries) (he : e ∈ lists.values l) : l < 2 := by
  obtain ⟨n, hn⟩ := SlotLists.mem_values.mp he
  rw [← standing.two]
  exact standing.sound.lt_of_mem hn

/-- Dropping the node of an entry drops the entry. -/
theorem dropped_eq_erase (standing : Standing lists entries) (hm : (n, e) ∈ lists.chain k)
    (l : Nat) : (SlotLists.dropped lists.chain n l).map (·.2) = (lists.values l).erase e := by
  rw [SlotLists.map_dropped (standing.only hm l), (standing.nodup l).erase_eq_filter]
  exact List.filter_congr fun d _ => by rw [Bool.eq_iff_iff]; simp

/-- A new entry is put on a list. -/
theorem push (standing : Standing lists entries) (he : e < entries.size)
    (new : ∀ l, e ∉ lists.values l) (hl : l < 2) :
    ∃ n lists', SlotLists.pushFront l e lists = .ok n lists' ∧
      Standing lists' (entries.modify e fun x => { x with dirNode := some n }) ∧
      ∀ k, lists'.values k = if k = l then e :: lists.values k else lists.values k := by
  obtain ⟨n, lists', run, sound, heads, -, -, -, -, chain⟩ :=
    standing.sound.pushFront_spec (standing.two ▸ hl) e
  refine ⟨n, lists', run, ⟨sound, heads.trans standing.two, fun k m d hm => ?_⟩,
    fun k => SlotLists.values_of_pushed chain⟩
  rw [chain, SlotLists.pushed] at hm
  have older : ∀ k, (m, d) ∈ lists.chain k →
      (Entries.entry (entries.modify e fun x => { x with dirNode := some n }) d).dirNode =
        some m := by
    intro k hold
    have hd : d ≠ e := by
      rintro rfl
      exact new k (SlotLists.mem_values.mpr ⟨m, hold⟩)
    rw [Entries.entry_modify_ne hd]
    exact standing.link k m d hold
  split at hm
  · rcases List.mem_cons.mp hm with heq | hold
    · obtain ⟨rfl, rfl⟩ := Prod.mk.inj heq
      rw [Entries.entry_modify_self he]
    · exact older k hold
  · exact older k hm

/-- An entry is moved to the front of a list. -/
theorem move (standing : Standing lists entries) (hm : (n, e) ∈ lists.chain k) (hl : l < 2) :
    ∃ lists', SlotLists.moveToFront n l lists = .ok () lists' ∧ Standing lists' entries ∧
      ∀ k, lists'.values k =
        if k = l then e :: (lists.values k).erase e else (lists.values k).erase e := by
  obtain ⟨lists', run, sound, heads, -, -, chain⟩ :=
    standing.sound.moveToFront_spec hm (standing.two ▸ hl)
  refine ⟨lists', run, ⟨sound, heads.trans standing.two, fun j m d hd => ?_⟩, fun j => ?_⟩
  · rw [chain, SlotLists.pushed] at hd
    have older : ∀ j, (m, d) ∈ SlotLists.dropped lists.chain n j →
        (entries.entry d).dirNode = some m :=
      fun j hd => standing.link j m d (List.mem_filter.mp hd).1
    split at hd
    · rcases List.mem_cons.mp hd with heq | hold
      · obtain ⟨rfl, rfl⟩ := Prod.mk.inj heq
        exact standing.link k m d hm
      · exact older j hold
    · exact older j hd
  · rw [SlotLists.values_of_pushed chain, standing.dropped_eq_erase hm]

/-- An entry is removed. -/
theorem remove (standing : Standing lists entries) (hm : (n, e) ∈ lists.chain k) :
    ∃ lists', SlotLists.remove n lists = .ok (some e) lists' ∧ Standing lists' entries ∧
      ∀ k, lists'.values k = (lists.values k).erase e := by
  obtain ⟨lists', run, sound, heads, -, -, chain⟩ := standing.sound.remove_spec hm
  refine ⟨lists', run, ⟨sound, heads.trans standing.two, fun j m d hd => ?_⟩,
    fun j => ?_⟩
  · rw [chain] at hd
    exact standing.link j m d (List.mem_filter.mp hd).1
  · rw [SlotLists.values, chain]
    exact standing.dropped_eq_erase hm j

end Standing

theorem Directory.status_updating {dir : Directory} :
    dir.status = .updating ↔ dir.updating = true := by
  rw [status]
  cases dir.updating with
  | true => simp
  | false =>
    rw [if_neg Bool.false_ne_true]
    split <;> simp

namespace Standing

variable {dir : Directory} {entries : Entries}

theorem activeCount_eq (standing : Standing dir.lists entries) :
    dir.activeCount = dir.activeEntries.length :=
  standing.sound.count_values dir.active.list

theorem staleCount_eq (standing : Standing dir.lists entries) :
    dir.staleCount = dir.staleEntries.length :=
  standing.sound.count_values dir.active.other.list

/-- The entries of a directory are the active and the stale ones. -/
theorem length_eq (standing : Standing dir.lists entries) :
    dir.length = dir.activeEntries.length + dir.staleEntries.length := by
  rw [Directory.length, standing.sound.total_eq, standing.two, Directory.activeEntries,
    Directory.staleEntries, SlotLists.values, SlotLists.values, List.length_map, List.length_map]
  cases dir.active with
  | a => exact congrArg (· + _) (Nat.zero_add _)
  | b => exact (congrArg (· + _) (Nat.zero_add _)).trans (Nat.add_comm _ _)

theorem status_clean (standing : Standing dir.lists entries) :
    dir.status = .clean ↔ dir.updating = false ∧ dir.staleEntries = [] := by
  rw [Directory.status, standing.staleCount_eq]
  cases dir.updating with
  | true => simp
  | false =>
    rw [if_neg Bool.false_ne_true]
    split <;> simp_all

theorem status_inconsistent (standing : Standing dir.lists entries) :
    dir.status = .inconsistent ↔ dir.updating = false ∧ dir.staleEntries ≠ [] := by
  rw [Directory.status, standing.staleCount_eq]
  cases dir.updating with
  | true => simp
  | false =>
    rw [if_neg Bool.false_ne_true]
    split <;> simp_all

end Standing

end NameCache
