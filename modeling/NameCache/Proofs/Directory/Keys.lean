/-
  The key references that a directory takes and gives back.

  An entry takes a reference to its key when it is made and gives it back when it is destroyed.
  `Ledger.destroyed` lists the entries that an action destroys, in the order in which they go, and
  `Ledger.keyEvents` what the action records of keys.  No action records anything else
  (`Ledger.keys_act`), and no other entry loses its key (`Ledger.key_act`).
-/
import NameCache.Proofs.Directory.Insertions

namespace NameCache

/-- What is recorded when entries give back their keys in order. -/
def Entries.releases (entries : Entries) (es : List Nat) : List KeyEvent :=
  (es.map fun e => (entries.entry e).key).filterMap (·.map .released)

/-- Links have no part in it. -/
theorem Entries.releases_map_bare (entries : Entries) (es : List Nat) :
    Entries.releases (entries.map Entry.bare) es = entries.releases es := by
  refine congrArg (List.filterMap _) (List.map_congr_left fun e _ => ?_)
  rw [entry_map_bare]
  rfl

namespace Ledger

variable {l : Ledger} {e d : Nat} {es : List Nat} {g : UInt64} {expiry : Expiry} {action : Action}
  {outcome : Outcome} {label : String} {name encname : Bytes}

/-- The entries that an accepted action destroys, the first one first. -/
def destroyed (l : Ledger) : Action → List Nat
  | .endUpdate => if l.updating then l.stale else []
  | .purge => l.stale ++ l.active
  | _ => []

/-- What an accepted action records of keys, the first event first. -/
def keyEvents (l : Ledger) : Action → List KeyEvent
  | .insert label _ _ => [.acquired label]
  | action => l.entries.releases (l.destroyed action)

/-- What is refused destroys nothing. -/
theorem destroyed_of_refused (refuses : ¬ l.Accepts action) : l.destroyed action = [] := by
  cases action with
  | endUpdate => exact absurd trivial refuses
  | purge => exact absurd trivial refuses
  | _ => rfl

/-! ## Destroying -/

/-- A purge destroys what is stale and what is active, one after the other. -/
theorem purge_eq (l : Ledger) : l.purge = l.dropAll (l.stale ++ l.active) :=
  List.foldl_append.symm

/-- Nothing is destroyed twice. -/
theorem nodup_destroyed (tidy : l.Tidy) (action : Action) : (l.destroyed action).Nodup := by
  cases action with
  | endUpdate =>
    show (if l.updating then l.stale else []).Nodup
    split
    · exact tidy.stale_nodup
    · exact List.nodup_nil
  | purge =>
    refine List.nodup_append.mpr ⟨tidy.stale_nodup, tidy.active_nodup, ?_⟩
    rintro e stale d active rfl
    exact tidy.disjoint e active stale
  | _ => exact List.nodup_nil

/-- What is destroyed was held. -/
theorem holds_of_destroyed (h : e ∈ l.destroyed action) : l.Holds e := by
  cases action with
  | endUpdate =>
    replace h : e ∈ (if l.updating then l.stale else []) := h
    split at h
    · exact .inr h
    · exact absurd h List.not_mem_nil
  | purge => exact (List.mem_append.mp h).symm
  | _ => exact absurd h List.not_mem_nil

theorem key_drop : ((l.drop e).entries.entry d).key =
    if d = e then none else (l.entries.entry d).key := by
  by_cases same : d = e
  · subst same
    rw [if_pos rfl]
    by_cases known : d < l.entries.size
    · exact congrArg Entry.key (Entries.entry_modify_self known)
    · have beyond : (l.drop d).entries.size ≤ d := by
        rw [drop, Entries.size_modify]
        exact Nat.not_lt.mp known
      rw [Entries.entry_of_le beyond]
      rfl
  · rw [if_neg same]
    exact congrArg Entry.key (Entries.entry_modify_ne same)

/-- Entries that are destroyed have no key afterwards, and the others keep theirs. -/
theorem key_dropAll : ((l.dropAll es).entries.entry d).key =
    if d ∈ es then none else (l.entries.entry d).key := by
  induction es generalizing l with
  | nil => exact (if_neg List.not_mem_nil).symm
  | cons e rest ih =>
    show (((l.drop e).dropAll rest).entries.entry d).key = _
    rw [ih, key_drop]
    by_cases here : d ∈ rest
    · rw [if_pos here, if_pos (List.mem_cons_of_mem _ here)]
    · rw [if_neg here]
      by_cases same : d = e
      · rw [if_pos same, if_pos (same ▸ List.mem_cons_self ..)]
      · rw [if_neg same, if_neg fun h => (List.mem_cons.mp h).elim same here]

/-- Each of them gives its key back as it goes. -/
theorem keys_dropAll (nodup : es.Nodup) :
    (l.dropAll es).keys = (l.entries.releases es).reverse ++ l.keys := by
  induction es generalizing l with
  | nil => rfl
  | cons e rest ih =>
    obtain ⟨off, nodup⟩ := List.nodup_cons.mp nodup
    -- the others still have the keys they had
    have others : (l.drop e).entries.releases rest = l.entries.releases rest := by
      refine congrArg (List.filterMap _) (List.map_congr_left fun d hd => ?_)
      have other : ¬ d = e := fun same => off (same ▸ hd)
      rw [key_drop, if_neg other]
    show ((l.drop e).dropAll rest).keys = _
    rw [ih nodup, others, Entries.releases, Entries.releases, List.map_cons, List.filterMap_cons]
    show _ ++ (l.entries.entry e).key.elim l.keys _ = _
    cases (l.entries.entry e).key with
    | none => rfl
    | some label =>
      show _ ++ KeyEvent.released label :: l.keys = (KeyEvent.released label :: _).reverse ++ l.keys
      rw [List.reverse_cons, List.append_assoc]
      rfl

theorem key_purge : (l.purge.entries.entry d).key =
    if d ∈ l.stale ++ l.active then none else (l.entries.entry d).key := by
  rw [purge_eq]
  exact key_dropAll

theorem keys_purge (tidy : l.Tidy) :
    l.purge.keys = (l.entries.releases (l.stale ++ l.active)).reverse ++ l.keys := by
  rw [purge_eq]
  exact keys_dropAll (nodup_destroyed tidy .purge)

/-! ## The other operations -/

@[simp] theorem keys_expire : (l.expire expiry).keys = l.keys := by
  rw [expire]
  split <;> rfl

@[simp] theorem keys_confirm : (l.confirm expiry e).keys = l.keys := by
  rw [confirm, park, enrol]
  split
  · rfl
  · split
    · split
      · exact keys_expire
      · exact keys_expire
    · split <;> rfl

theorem keys_beginUpdate : (l.beginUpdate expiry g).keys = l.keys := by
  rw [beginUpdate]
  split
  · split
    · rfl
    · exact keys_expire
  · rfl

theorem keys_abortUpdate : (l.abortUpdate expiry).keys = l.keys := by
  rw [abortUpdate]
  split
  · exact keys_expire
  · rfl

theorem keys_counted : (l.counted outcome).keys = l.keys := by
  cases outcome <;> rfl

/-- An accepted action records exactly its events. -/
theorem keys_act (tidy : l.Tidy) :
    (l.act expiry action outcome).keys = (l.keyEvents action).reverse ++ l.keys := by
  cases action with
  | insert label name encname => exact keys_confirm (l := l.make label name encname)
  | update e => exact keys_confirm
  | lookupName name => exact keys_counted
  | lookupEncname encname => exact keys_counted
  | beginUpdate hold g => exact keys_beginUpdate
  | endUpdate =>
    show l.endUpdate.keys = (l.entries.releases (if l.updating then l.stale else [])).reverse ++ _
    rw [endUpdate]
    split
    · exact keys_dropAll tidy.stale_nodup
    · rfl
  | abortUpdate => exact keys_abortUpdate
  | purge => exact keys_purge tidy

/-- An operation that changes nothing of the entries but generations leaves them their keys. -/
theorem key_abortUpdate : ((l.abortUpdate expiry).entries.entry d).key =
    (l.entries.entry d).key := by
  rw [abortUpdate]
  split
  · exact property_expire Entry.key (fun _ _ => rfl) d
  · rfl

theorem key_beginUpdate : ((l.beginUpdate expiry g).entries.entry d).key =
    (l.entries.entry d).key := by
  rw [beginUpdate]
  split
  · split
    · rfl
    · exact property_expire Entry.key (fun _ _ => rfl) d
  · rfl

theorem key_counted : ((l.counted outcome).entries.entry d).key = (l.entries.entry d).key := by
  rw [entries_counted]

/-- A new entry takes no other entry's key. -/
theorem key_insert (known : d < l.entries.size) :
    ((l.insert expiry label name encname).entries.entry d).key = (l.entries.entry d).key := by
  have kept : ((l.insert expiry label name encname).entries.entry d).key =
      ((l.make label name encname).entries.entry d).key :=
    property_confirm Entry.key (fun _ _ => rfl) d
  exact kept.trans (congrArg Entry.key (Entries.entry_push_lt known))

/-- Of the entries that are there, those destroyed lose their keys and no others. -/
theorem key_act (known : d < l.entries.size) :
    ((l.act expiry action outcome).entries.entry d).key =
      if d ∈ l.destroyed action then none else (l.entries.entry d).key := by
  have none_destroyed : (l.entries.entry d).key =
      if d ∈ ([] : List Nat) then none else (l.entries.entry d).key :=
    (if_neg List.not_mem_nil).symm
  cases action with
  | insert label name encname => exact (key_insert known).trans none_destroyed
  | update e => exact (property_confirm Entry.key (fun _ _ => rfl) d).trans none_destroyed
  | lookupName name => exact key_counted.trans none_destroyed
  | lookupEncname encname => exact key_counted.trans none_destroyed
  | beginUpdate hold g => exact key_beginUpdate.trans none_destroyed
  | endUpdate =>
    show (l.endUpdate.entries.entry d).key =
      if d ∈ (if l.updating then l.stale else []) then _ else _
    rw [endUpdate]
    split
    · exact key_dropAll
    · exact none_destroyed
  | abortUpdate => exact key_abortUpdate.trans none_destroyed
  | purge => exact key_purge

end Ledger

/-- The ledger has the keys of the entries. -/
theorem Opened.key_ledger (s : Opened) (e : Nat) :
    (s.ledger.entries.entry e).key = (s.entries.entry e).key := by
  have bare : s.ledger.entries.entry e = (s.entries.entry e).bare := Entries.entry_map_bare
  rw [bare]
  rfl

namespace Deed

variable (deed : Deed) {others : Nat → Prop}

/-- What a deed does to key references: it makes an entry, which takes one, or it destroys some
    entries, which give theirs back. -/
theorem references (sound : deed.before.Sound others) :
    (∃ label name encname, deed.action = .insert label name encname ∧
      deed.outcome = some (.made deed.before.entries.size) ∧
      deed.after.entries.size = deed.before.entries.size + 1 ∧
      (deed.after.entries.entry deed.before.entries.size).key = some label ∧
      (∀ e, e < deed.before.entries.size →
        (deed.after.entries.entry e).key = (deed.before.entries.entry e).key) ∧
      deed.after.log.keys = .acquired label :: deed.before.log.keys) ∨
    (deed.inserted = none ∧ deed.after.entries.size = deed.before.entries.size ∧
      (∀ e, e < deed.before.entries.size → (deed.after.entries.entry e).key =
        if e ∈ deed.before.ledger.destroyed deed.action then none
        else (deed.before.entries.entry e).key) ∧
      deed.after.log.keys = (deed.before.entries.releases
        (deed.before.ledger.destroyed deed.action)).reverse ++ deed.before.log.keys) := by
  have size_bare := size_ledger deed.before
  rcases deed.cases sound with
    ⟨refuses, refused, same⟩ | ⟨accepts, outcome, answer, answers, ledger, -⟩
  · have nothing := Ledger.destroyed_of_refused refuses
    refine .inr ⟨by rw [inserted, refused], by rw [same], fun e _ => ?_, ?_⟩
    · rw [same, nothing, if_neg List.not_mem_nil]
    · rw [same, nothing]
      rfl
  · have keys : deed.after.log.keys =
        (deed.before.ledger.keyEvents deed.action).reverse ++ deed.before.log.keys :=
      (congrArg Ledger.keys ledger).trans (Ledger.keys_act sound.ledger.toTidy)
    have kept : ∀ e, e < deed.before.entries.size → (deed.after.entries.entry e).key =
        if e ∈ deed.before.ledger.destroyed deed.action then none
        else (deed.before.entries.entry e).key := by
      intro e known
      rw [← deed.after.key_ledger, ← deed.before.key_ledger, ledger]
      exact Ledger.key_act (size_bare.symm ▸ known)
    by_cases inserts : ∃ label name encname, deed.action = .insert label name encname
    · obtain ⟨label, name, encname, action⟩ := inserts
      rw [action] at keys kept answers ledger
      refine .inl ⟨label, name, encname, action, ?_, ?_, ?_, fun e known => ?_, keys⟩
      · rw [answer, show outcome = _ from answers, size_bare]
      · have size := congrArg (·.entries.size) ledger
        exact (size_ledger deed.after).symm.trans
          (size.trans (Ledger.size_insert.trans (congrArg (· + 1) size_bare)))
      · obtain ⟨-, -, key⟩ := deed.before.ledger.entry_insert .swap label name encname
        rw [← deed.after.key_ledger, ledger, ← size_bare]
        exact key
      · exact (kept e known).trans (if_neg List.not_mem_nil)
    · have other : ∀ label name encname, deed.action ≠ .insert label name encname :=
        fun label name encname action => inserts ⟨label, name, encname, action⟩
      have unmade := inserted_eq_none deed sound other
      have events : deed.before.ledger.keyEvents deed.action =
          deed.before.entries.releases (deed.before.ledger.destroyed deed.action) := by
        rw [← Entries.releases_map_bare]
        cases action : deed.action with
        | insert label name encname => exact absurd action (other label name encname)
        | _ => rfl
      rcases deed.gains sound with ⟨made, -⟩ | ⟨-, size, -⟩
      · exact absurd (unmade.symm.trans made) (by simp)
      · refine .inr ⟨unmade, size, kept, ?_⟩
        rw [keys, events]

end Deed

end NameCache
