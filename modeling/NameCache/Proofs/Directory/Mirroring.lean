/-
  A ledger and its image in its own terms.

  A directory shares the numbering of entries with everybody else.  In its own terms the entries
  inserted through it are numbered by themselves, in the order of their insertion: with `own` the
  list of them, entry `e` is number `own.idxOf e`.  An entry of somebody else gets the next free
  number, which is that of no entry.

  `Ledger.Mirrors own l image` says that `image` is `l` in these terms, counters and log left aside.
  Every operation keeps it, because none compares entries but for equality, and no operation looks
  at an entry that is not held.
-/
import NameCache.Proofs.Directory.Keys

namespace NameCache

variable {own : List Nat} {a e : Nat}

/-- Numbers in a list tell its members apart, also from whatever is not in the list. -/
theorem eq_of_idxOf_eq (ha : a ∈ own) (same : own.idxOf a = own.idxOf e) : a = e := by
  have known := List.idxOf_lt_length_of_mem ha
  have known' : own.idxOf e < own.length := same ▸ known
  rw [← List.getElem_idxOf known, ← List.getElem_idxOf known']
  simp only [same]

theorem map_idxOf_self (nodup : own.Nodup) : own.map own.idxOf = List.range own.length := by
  refine List.ext_getElem (by simp) fun i known _ => ?_
  rw [List.getElem_map, List.getElem_range, nodup.idxOf_getElem]

theorem idxOf_range {i n : Nat} (h : i ≤ n) : (List.range n).idxOf i = i := by
  rcases Nat.lt_or_eq_of_le h with lt | rfl
  · have known : i < (List.range n).length := by simpa using lt
    have number := List.nodup_range.idxOf_getElem i known
    rwa [List.getElem_range] at number
  · rw [List.idxOf_eq_length (by simp), List.length_range]

/-- Erasing a member is erasing its number. -/
theorem map_erase_idxOf {l : List Nat} (members : ∀ a ∈ l, a ∈ own) :
    (l.erase e).map own.idxOf = (l.map own.idxOf).erase (own.idxOf e) := by
  induction l with
  | nil => rfl
  | cons a rest ih =>
    obtain ⟨ha, members⟩ := List.forall_mem_cons.mp members
    rw [List.map_cons, List.erase_cons, List.erase_cons]
    by_cases same : a = e
    · subst same
      rw [if_pos (beq_self_eq_true a), if_pos (beq_self_eq_true _)]
    · have apart : own.idxOf a ≠ own.idxOf e := fun h => same (eq_of_idxOf_eq ha h)
      rw [if_neg (by simpa using same), if_neg (by simpa using apart), List.map_cons, ih members]

theorem mem_map_idxOf {l : List Nat} (members : ∀ a ∈ l, a ∈ own) :
    own.idxOf e ∈ l.map own.idxOf ↔ e ∈ l := by
  refine ⟨fun h => ?_, List.mem_map_of_mem⟩
  obtain ⟨a, ha, same⟩ := List.mem_map.mp h
  exact eq_of_idxOf_eq (members a ha) same ▸ ha

/-- An action in the terms of a directory. -/
def Action.inTerms (own : List Nat) : Action → Action
  | .update e => .update (own.idxOf e)
  | action => action

/-- What it answers, in the same terms. -/
def Outcome.inTerms (own : List Nat) : Outcome → Outcome
  | .made e => .made (own.idxOf e)
  | .found e => .found (e.map own.idxOf)
  | outcome => outcome

/-! ## Entries -/

/-- Some entries are the same as others are under their own numbers. -/
structure Entries.Mirrors (own : List Nat) (entries image : Entries) : Prop where
  size : image.size = own.length
  bound : ∀ e ∈ own, e < entries.size
  entry : ∀ e ∈ own, Entries.entry image (own.idxOf e) = entries.entry e

namespace Entries.Mirrors

variable {entries image : Entries}

theorem modify (mirrors : Entries.Mirrors own entries image) (he : e ∈ own) (f : Entry → Entry) :
    Entries.Mirrors own (entries.modify e f) (image.modify (own.idxOf e) f) where
  size := size_modify.trans mirrors.size
  bound := fun d hd => by
    rw [size_modify]
    exact mirrors.bound d hd
  entry := fun d hd => by
    by_cases same : d = e
    · subst same
      have known : own.idxOf d < image.size := by
        rw [mirrors.size]
        exact List.idxOf_lt_length_of_mem hd
      rw [entry_modify_self known, entry_modify_self (mirrors.bound d hd), mirrors.entry d hd]
    · have apart : own.idxOf d ≠ own.idxOf e := fun h => same (eq_of_idxOf_eq hd h)
      rw [entry_modify_ne apart, entry_modify_ne same, mirrors.entry d hd]

theorem stampAll (mirrors : Entries.Mirrors own entries image) {es : List Nat}
    (members : ∀ e ∈ es, e ∈ own) (generation : UInt64) :
    Entries.Mirrors own (entries.stampAll generation es)
      (image.stampAll generation (es.map own.idxOf)) := by
  induction es generalizing entries image with
  | nil => exact mirrors
  | cons e rest ih =>
    obtain ⟨he, members⟩ := List.forall_mem_cons.mp members
    exact ih (mirrors.modify he _) members

/-- The next entry is the next one of the own ones. -/
theorem push (mirrors : Entries.Mirrors own entries image) (x : Entry) :
    Entries.Mirrors (own ++ [entries.size]) (entries.push x) (image.push x) where
  size := by
    rw [Array.size_push, mirrors.size, List.length_append]
    rfl
  bound := fun d hd => by
    rw [Array.size_push]
    rcases List.mem_append.mp hd with old | new
    · exact Nat.lt_succ_of_lt (mirrors.bound d old)
    · rw [List.mem_singleton.mp new]
      exact Nat.lt_succ_self _
  entry := fun d hd => by
    rw [List.idxOf_append]
    by_cases old : d ∈ own
    · have known : own.idxOf d < image.size := by
        rw [mirrors.size]
        exact List.idxOf_lt_length_of_mem old
      rw [if_pos old, entry_push_lt known, entry_push_lt (mirrors.bound d old),
        mirrors.entry d old]
    · have new := (List.mem_append.mp hd).resolve_left old
      rw [if_neg old, List.mem_singleton.mp new, List.idxOf_cons_self, Nat.zero_add, ← mirrors.size,
        entry_push_self, entry_push_self]

end Entries.Mirrors

/-! ## Ledgers -/

namespace Ledger

/-- A ledger is another one in the terms of a directory. -/
structure Mirrors (own : List Nat) (l image : Ledger) : Prop where
  id : image.id = l.id
  generation : image.generation = l.generation
  updating : image.updating = l.updating
  active : image.active = l.active.map own.idxOf
  stale : image.stale = l.stale.map own.idxOf
  entries : Entries.Mirrors own l.entries image.entries
  held : ∀ e, l.Holds e → e ∈ own

namespace Mirrors

variable {l image : Ledger} {action : Action} {outcome outcome' : Outcome}

theorem active_mem (mirrors : Mirrors own l image) : ∀ e ∈ l.active, e ∈ own :=
  fun e he => mirrors.held e (.inl he)

theorem stale_mem (mirrors : Mirrors own l image) : ∀ e ∈ l.stale, e ∈ own :=
  fun e he => mirrors.held e (.inr he)

/-- What is held is held in the terms of the directory, and nothing else is. -/
theorem holds (mirrors : Mirrors own l image) : image.Holds (own.idxOf e) ↔ l.Holds e := by
  rw [Holds, Holds, mirrors.active, mirrors.stale, mem_map_idxOf mirrors.active_mem,
    mem_map_idxOf mirrors.stale_mem]

theorem active_nil (mirrors : Mirrors own l image) : image.active = [] ↔ l.active = [] := by
  rw [mirrors.active, List.map_eq_nil_iff]

theorem stale_nil (mirrors : Mirrors own l image) : image.stale = [] ↔ l.stale = [] := by
  rw [mirrors.stale, List.map_eq_nil_iff]

theorem stamp (mirrors : Mirrors own l image) (he : e ∈ own) (g : UInt64) :
    Mirrors own (l.stamp e g) (image.stamp (own.idxOf e) g) :=
  { mirrors with entries := mirrors.entries.modify he fun entry => { entry with generation := g } }

theorem expire (mirrors : Mirrors own l image) (expiry : Expiry) :
    Mirrors own (l.expire expiry) (image.expire expiry) := by
  rw [Ledger.expire, Ledger.expire]
  by_cases swaps : expiry = .swap ∧ l.stale = []
  · rw [if_pos swaps, if_pos ⟨swaps.1, mirrors.stale_nil.mpr swaps.2⟩]
    exact
      { mirrors with
        generation := rfl
        active := mirrors.stale
        stale := mirrors.active
        held := fun e he => mirrors.held e he.symm }
  · rw [if_neg swaps, if_neg fun h => swaps ⟨h.1, mirrors.stale_nil.mp h.2⟩]
    exact
      { mirrors with
        generation := rfl
        active := rfl
        stale := by
          show image.active.reverse ++ image.stale = (l.active.reverse ++ l.stale).map own.idxOf
          rw [mirrors.active, mirrors.stale, List.map_append, List.map_reverse]
        entries := by
          show Entries.Mirrors own _ (image.entries.stampAll 0 image.active)
          rw [mirrors.active]
          exact mirrors.entries.stampAll mirrors.active_mem 0
        held := fun e he => by
          rcases he with he | he
          · exact absurd he List.not_mem_nil
          · rcases List.mem_append.mp he with active | stale
            · exact mirrors.held e (.inl (List.mem_reverse.mp active))
            · exact mirrors.held e (.inr stale) }

theorem renew (mirrors : Mirrors own l image) (he : e ∈ own) :
    Mirrors own (l.renew e) (image.renew (own.idxOf e)) := by
  have stamped := mirrors.stamp he l.generation
  exact
    { mirrors with
      active := by
        show own.idxOf e :: image.active.erase (own.idxOf e) = (e :: l.active.erase e).map own.idxOf
        rw [mirrors.active, List.map_cons, map_erase_idxOf mirrors.active_mem]
      stale := by
        show image.stale.erase (own.idxOf e) = (l.stale.erase e).map own.idxOf
        rw [mirrors.stale, map_erase_idxOf mirrors.stale_mem]
      entries := by
        show Entries.Mirrors own _ (image.stamp (own.idxOf e) image.generation).entries
        rw [mirrors.generation]
        exact stamped.entries
      held := fun d hd => by
        rcases hd with hd | hd
        · rcases List.mem_cons.mp hd with rfl | old
          · exact he
          · exact mirrors.active_mem d (List.mem_of_mem_erase old)
        · exact mirrors.stale_mem d (List.mem_of_mem_erase hd) }

theorem park (mirrors : Mirrors own l image) (he : e ∈ own) :
    Mirrors own (l.park e) (image.park (own.idxOf e)) := by
  rw [Ledger.park, Ledger.park]
  by_cases held : l.Holds e
  · rw [if_pos held, if_pos (mirrors.holds.mpr held)]
    exact mirrors
  · rw [if_neg held, if_neg fun h => held (mirrors.holds.mp h)]
    exact
      { mirrors with
        stale := congrArg (own.idxOf e :: ·) mirrors.stale
        held := fun d hd => by
          rcases hd with hd | hd
          · exact mirrors.active_mem d hd
          · rcases List.mem_cons.mp hd with rfl | old
            · exact he
            · exact mirrors.stale_mem d old }

theorem enrol (mirrors : Mirrors own l image) (he : e ∈ own) :
    Mirrors own (l.enrol e) (image.enrol (own.idxOf e)) := by
  rw [Ledger.enrol, Ledger.enrol]
  by_cases held : l.Holds e
  · rw [if_pos held, if_pos (mirrors.holds.mpr held)]
    exact mirrors
  · rw [if_neg held, if_neg fun h => held (mirrors.holds.mp h)]
    exact
      { mirrors with
        active := congrArg (own.idxOf e :: ·) mirrors.active
        held := fun d hd => by
          rcases hd with hd | hd
          · rcases List.mem_cons.mp hd with rfl | old
            · exact he
            · exact mirrors.active_mem d old
          · exact mirrors.stale_mem d hd }

theorem confirm (mirrors : Mirrors own l image) (he : e ∈ own) (expiry : Expiry) :
    Mirrors own (l.confirm expiry e) (image.confirm expiry (own.idxOf e)) := by
  have doubt : (image.stale ≠ [] ∨
      (image.entries.entry (own.idxOf e)).generation ≠ image.generation) ↔
        (l.stale ≠ [] ∨ (l.entries.entry e).generation ≠ l.generation) := by
    rw [mirrors.entries.entry e he, mirrors.generation, ne_eq, mirrors.stale_nil]
  rw [Ledger.confirm, Ledger.confirm, mirrors.updating]
  by_cases scanning : l.updating = true
  · rw [if_pos scanning, if_pos scanning]
    exact mirrors.renew he
  · rw [if_neg scanning, if_neg scanning]
    by_cases h : l.stale ≠ [] ∨ (l.entries.entry e).generation ≠ l.generation
    · rw [if_pos h, if_pos (doubt.mpr h)]
      exact ((mirrors.expire expiry).stamp he 0).park he
    · rw [if_neg h, if_neg fun h' => h (doubt.mp h')]
      exact mirrors.enrol he

/-- A number goes on meaning the same entry when there are more. -/
theorem make (mirrors : Mirrors own l image) (label : String) (name encname : Bytes) :
    Mirrors (own ++ [l.entries.size]) (l.make label name encname)
      (image.make label name encname) := by
  have same : ∀ {es : List Nat}, (∀ e ∈ es, e ∈ own) →
      es.map own.idxOf = es.map (own ++ [l.entries.size]).idxOf := fun members =>
    List.map_congr_left fun e he => by rw [List.idxOf_append, if_pos (members e he)]
  exact
    { mirrors with
      active := mirrors.active.trans (same mirrors.active_mem)
      stale := mirrors.stale.trans (same mirrors.stale_mem)
      entries := by
        show Entries.Mirrors _ _
          (image.entries.push { dir := image.id, name, encname, key := some label })
        rw [mirrors.id]
        exact mirrors.entries.push _
      held := fun e he => List.mem_append_left _ (mirrors.held e he) }

/-- The next entry gets the next number. -/
theorem next (mirrors : Mirrors own l image) :
    (own ++ [l.entries.size]).idxOf l.entries.size = image.entries.size := by
  have new : l.entries.size ∉ own := fun h => Nat.lt_irrefl _ (mirrors.entries.bound _ h)
  rw [List.idxOf_append, if_neg new, List.idxOf_cons_self, Nat.zero_add, mirrors.entries.size]

theorem insert (mirrors : Mirrors own l image) (expiry : Expiry) (label : String)
    (name encname : Bytes) : Mirrors (own ++ [l.entries.size])
      (l.insert expiry label name encname) (image.insert expiry label name encname) := by
  have placed := (mirrors.make label name encname).confirm
    (List.mem_append_right own (List.mem_singleton.mpr rfl)) expiry
  rw [mirrors.next] at placed
  exact { placed with }

theorem drop (mirrors : Mirrors own l image) (he : e ∈ own) :
    Mirrors own (l.drop e) (image.drop (own.idxOf e)) :=
  { mirrors with
    active := by
      show image.active.erase (own.idxOf e) = (l.active.erase e).map own.idxOf
      rw [mirrors.active, map_erase_idxOf mirrors.active_mem]
    stale := by
      show image.stale.erase (own.idxOf e) = (l.stale.erase e).map own.idxOf
      rw [mirrors.stale, map_erase_idxOf mirrors.stale_mem]
    entries := mirrors.entries.modify he fun entry => { entry with key := none }
    held := fun d hd => mirrors.held d (hd.imp List.mem_of_mem_erase List.mem_of_mem_erase) }

theorem dropAll (mirrors : Mirrors own l image) (es : List Nat) (members : ∀ e ∈ es, e ∈ own) :
    Mirrors own (l.dropAll es) (image.dropAll (es.map own.idxOf)) := by
  induction es generalizing l image with
  | nil => exact mirrors
  | cons e rest ih =>
    obtain ⟨he, members⟩ := List.forall_mem_cons.mp members
    exact ih (mirrors.drop he) members

theorem purge (mirrors : Mirrors own l image) : Mirrors own l.purge image.purge := by
  have dropped := mirrors.dropAll (l.stale ++ l.active) fun e he =>
    mirrors.held e (List.mem_append.mp he).symm
  rw [List.map_append, ← mirrors.active, ← mirrors.stale] at dropped
  rw [purge_eq, purge_eq]
  exact dropped

theorem beginUpdate (mirrors : Mirrors own l image) (expiry : Expiry) (g : UInt64) :
    Mirrors own (l.beginUpdate expiry g) (image.beginUpdate expiry g) := by
  rw [Ledger.beginUpdate, Ledger.beginUpdate]
  by_cases begins : l.Begins g
  · rw [if_pos begins, if_pos (show image.Begins g by rwa [Begins, mirrors.generation])]
    by_cases empty : l.active = []
    · rw [if_pos empty, if_pos (mirrors.active_nil.mpr empty)]
      exact { mirrors with generation := rfl, updating := rfl }
    · rw [if_neg empty, if_neg fun h => empty (mirrors.active_nil.mp h)]
      exact { mirrors.expire expiry with generation := rfl, updating := rfl }
  · rw [if_neg begins, if_neg fun h => begins (by rwa [Begins, mirrors.generation] at h)]
    exact mirrors

theorem endUpdate (mirrors : Mirrors own l image) : Mirrors own l.endUpdate image.endUpdate := by
  rw [Ledger.endUpdate, Ledger.endUpdate, mirrors.updating]
  by_cases scanning : l.updating = true
  · have dropped := mirrors.dropAll l.stale mirrors.stale_mem
    rw [← mirrors.stale] at dropped
    rw [if_pos scanning, if_pos scanning]
    exact { dropped with updating := rfl }
  · rw [if_neg scanning, if_neg scanning]
    exact mirrors

theorem abortUpdate (mirrors : Mirrors own l image) (expiry : Expiry) :
    Mirrors own (l.abortUpdate expiry) (image.abortUpdate expiry) := by
  rw [Ledger.abortUpdate, Ledger.abortUpdate, mirrors.updating]
  by_cases scanning : l.updating = true
  · rw [if_pos scanning, if_pos scanning]
    exact { mirrors.expire expiry with updating := rfl }
  · rw [if_neg scanning, if_neg scanning]
    exact mirrors

theorem counted (mirrors : Mirrors own l image) :
    Mirrors own (l.counted outcome) (image.counted outcome') := by
  cases outcome <;> cases outcome' <;> exact { mirrors with }

/-! ## Actions -/

/-- An action is accepted exactly if it is in the terms of the directory. -/
theorem accepts_iff (mirrors : Mirrors own l image) (action : Action) :
    image.Accepts (action.inTerms own) ↔ l.Accepts action := by
  cases action with
  | update e => exact mirrors.holds
  | lookupName name =>
    show image.updating = false ∧ image.stale = [] ↔ l.updating = false ∧ l.stale = []
    rw [mirrors.updating, mirrors.stale_nil]
  | _ => exact Iff.rfl

theorem destroyed (mirrors : Mirrors own l image) (action : Action) :
    image.destroyed (action.inTerms own) = (l.destroyed action).map own.idxOf := by
  cases action with
  | endUpdate =>
    show (if image.updating then image.stale else []) = (if l.updating then l.stale else []).map _
    rw [mirrors.updating, mirrors.stale, apply_ite (List.map own.idxOf)]
    rfl
  | purge =>
    show image.stale ++ image.active = (l.stale ++ l.active).map own.idxOf
    rw [mirrors.stale, mirrors.active, List.map_append]
  | _ => rfl

/-- The same key events come of it. -/
theorem keyEvents (mirrors : Mirrors own l image) (action : Action) :
    image.keyEvents (action.inTerms own) = l.keyEvents action := by
  have releases : image.entries.releases (image.destroyed (action.inTerms own)) =
      l.entries.releases (l.destroyed action) := by
    rw [Entries.releases, Entries.releases, mirrors.destroyed, List.map_map]
    refine congrArg (List.filterMap _) (List.map_congr_left fun e he => ?_)
    exact congrArg Entry.key (mirrors.entries.entry e (mirrors.held e (holds_of_destroyed he)))
  cases action with
  | insert label name encname => rfl
  | _ => exact releases

/-- Whatever does not insert turns a mirrored ledger into a mirrored ledger. -/
theorem act (mirrors : Mirrors own l image) (accepts : l.Accepts action)
    (other : ∀ label name encname, action ≠ .insert label name encname) (expiry : Expiry) :
    Mirrors own (l.act expiry action outcome) (image.act expiry (action.inTerms own) outcome') := by
  cases action with
  | insert label name encname => exact absurd rfl (other label name encname)
  | update e => exact mirrors.confirm (mirrors.held e accepts) expiry
  | lookupName name => exact mirrors.counted
  | lookupEncname encname => exact mirrors.counted
  | beginUpdate hold g => exact mirrors.beginUpdate expiry g
  | endUpdate => exact mirrors.endUpdate
  | abortUpdate => exact mirrors.abortUpdate expiry
  | purge => exact mirrors.purge

end Mirrors

end Ledger

end NameCache
