/-
  Demoting by an exchange of the lists or by a walk comes to the same.

  An exchange leaves the entries the generations they carried and the stale list in the order of the
  active one; a walk drops the generations and reverses the order.  `Ledger.Agrees` says that two
  ledgers are the same up to that: the order of the stale list, the order in which keys were
  released, and the generations carried by stale entries and by entries that were destroyed while
  they were stale (`faded`).  Every action keeps two ledgers so, whichever way each of them demotes
  (`Agrees.act`).

  The crux is that an action looks at the generation of an entry only while nothing is stale, when
  the entry is active or new, and there the two agree.
-/
import NameCache.Proofs.Directory.Counters
import NameCache.Proofs.Directory.Stamps

namespace NameCache

/-- The entry without the generation it carries. -/
def Entry.unstamped (x : Entry) : Entry := { x with generation := 0 }

/-- An entry is told by what it is without its generation, and its generation. -/
theorem Entry.eq_of_unstamped {x y : Entry} (same : x.unstamped = y.unstamped)
    (stamp : x.generation = y.generation) : x = y := by
  calc
    x = { x.unstamped with generation := x.generation } := rfl
    _ = { y.unstamped with generation := y.generation } := by rw [same, stamp]
    _ = y := rfl

namespace Ledger

variable {l image : Ledger} {e d : Nat} {es es' : List Nat} {x y : Expiry} {action : Action}
  {outcome : Outcome} {faded : Nat → Prop}

/-! ## What is left of an entry that is destroyed -/

theorem entry_drop : (l.drop e).entries.entry d =
    if d = e then { l.entries.entry d with key := none } else l.entries.entry d := by
  by_cases same : d = e
  · subst same
    rw [if_pos rfl]
    by_cases known : d < l.entries.size
    · exact Entries.entry_modify_self known
    · have beyond : (l.drop d).entries.size ≤ d := by
        rw [drop, Entries.size_modify]
        exact Nat.not_lt.mp known
      rw [Entries.entry_of_le beyond, Entries.entry_of_le (Nat.not_lt.mp known)]
      rfl
  · rw [if_neg same]
    exact Entries.entry_modify_ne same

theorem entry_dropAll : (l.dropAll es).entries.entry d =
    if d ∈ es then { l.entries.entry d with key := none } else l.entries.entry d := by
  induction es generalizing l with
  | nil => exact (if_neg List.not_mem_nil).symm
  | cons e rest ih =>
    show ((l.drop e).dropAll rest).entries.entry d = _
    rw [ih, entry_drop]
    by_cases same : d = e
    · subst same
      rw [if_pos rfl, if_pos (List.mem_cons_self ..)]
      exact ite_self _
    · rw [if_neg same]
      by_cases later : d ∈ rest
      · rw [if_pos later, if_pos (List.mem_cons_of_mem _ later)]
      · rw [if_neg later, if_neg fun h => (List.mem_cons.mp h).elim same later]

theorem id_dropAll : (l.dropAll es).id = l.id := by
  induction es generalizing l with
  | nil => rfl
  | cons e rest ih => exact ih

/-- Whichever way entries are demoted, the stale ones are then those that were active or stale. -/
theorem stale_expire_perm (l : Ledger) (x : Expiry) :
    (l.expire x).stale.Perm (l.active ++ l.stale) := by
  rw [stale_expire]
  split
  case isTrue exchanged =>
    rw [exchanged.2, List.append_nil]
  case isFalse => exact (List.reverse_perm l.active).append_right l.stale

/-! ## The same ledger but for how entries were demoted -/

/-- Two ledgers are the same up to the order of the stale list and of releases, and up to the
    generations carried by stale entries and by the entries that faded. -/
structure Agrees (faded : Nat → Prop) (l image : Ledger) : Prop where
  id : image.id = l.id
  generation : image.generation = l.generation
  updating : image.updating = l.updating
  active : image.active = l.active
  stale : image.stale.Perm l.stale
  tally : image.tally = l.tally
  keys : image.keys.Perm l.keys
  size : image.entries.size = l.entries.size
  entry : ∀ e, (image.entries.entry e).unstamped = (l.entries.entry e).unstamped
  stamp : ∀ e, image.stampOf e = l.stampOf e ∨ faded e ∨ e ∈ l.stale
  /-- What faded is on record and not held. -/
  spent : ∀ e, faded e → e < l.entries.size ∧ ¬ l.Holds e

namespace Agrees

theorem refl (l : Ledger) : Agrees (fun _ => False) l l where
  id := rfl
  generation := rfl
  updating := rfl
  active := rfl
  stale := .refl _
  tally := rfl
  keys := .refl _
  size := rfl
  entry := fun _ => rfl
  stamp := fun _ => .inl rfl
  spent := fun _ h => h.elim

theorem holds (agrees : Agrees faded l image) : image.Holds e ↔ l.Holds e := by
  rw [Holds, Holds, agrees.active, agrees.stale.mem_iff]

/-- Whatever else is asked of an entry, its generation does not matter to the answer. -/
theorem property (agrees : Agrees faded l image) {β : Type} (p : Entry → β)
    (h : ∀ (x : Entry) (g : UInt64), p { x with generation := g } = p x) (e : Nat) :
    p (image.entries.entry e) = p (l.entries.entry e) :=
  calc
    p (image.entries.entry e) = p (image.entries.entry e).unstamped := (h _ 0).symm
    _ = p (l.entries.entry e).unstamped := by rw [agrees.entry]
    _ = p (l.entries.entry e) := h _ 0

/-- The same keys are given back, in another order. -/
theorem releases_perm (agrees : Agrees faded l image) (perm : es'.Perm es) :
    (image.entries.releases es').Perm (l.entries.releases es) := by
  have key : (fun e => (image.entries.entry e).key) = fun e => (l.entries.entry e).key :=
    funext fun e => agrees.property Entry.key (fun _ _ => rfl) e
  rw [Entries.releases, Entries.releases, key]
  exact (perm.map _).filterMap _

theorem stale_nil (agrees : Agrees faded l image) : image.stale = [] ↔ l.stale = [] := by
  constructor
  · intro nothing
    have perm := agrees.stale
    rw [nothing] at perm
    exact perm.nil_eq.symm
  · intro nothing
    have perm := agrees.stale
    rw [nothing] at perm
    exact perm.eq_nil

/-- They agree about every entry that is neither stale nor faded. -/
theorem stamp_eq (agrees : Agrees faded l image) (bright : ¬ faded e) (off : e ∉ l.stale) :
    image.stampOf e = l.stampOf e :=
  (agrees.stamp e).resolve_right fun h => h.elim bright off

theorem begins (agrees : Agrees faded l image) (g : UInt64) :
    image.Begins g ↔ l.Begins g := by
  rw [Begins, Begins, agrees.generation]

/-- They accept the same actions. -/
theorem accepts_iff (agrees : Agrees faded l image) (action : Action) :
    image.Accepts action ↔ l.Accepts action := by
  cases action with
  | update e => exact agrees.holds
  | lookupName name =>
    show image.updating = false ∧ image.stale = [] ↔ l.updating = false ∧ l.stale = []
    rw [agrees.updating, agrees.stale_nil]
  | _ => exact Iff.rfl

/-! ### Every operation keeps them so -/

theorem expire (agrees : Agrees faded l image) (x y : Expiry) :
    Agrees faded (l.expire x) (image.expire y) where
  id := by rw [id_expire, id_expire, agrees.id]
  generation := rfl
  updating := by rw [updating_expire, updating_expire, agrees.updating]
  active := by rw [active_expire, active_expire]
  stale := by
    have both : (image.active ++ image.stale).Perm (l.active ++ l.stale) := by
      rw [agrees.active]
      exact agrees.stale.append_left l.active
    exact (image.stale_expire_perm y).trans (both.trans (l.stale_expire_perm x).symm)
  tally := congrArg Tally.addExpiration agrees.tally
  keys := by
    rw [keys_expire, keys_expire]
    exact agrees.keys
  size := by rw [size_entries_expire, size_entries_expire, agrees.size]
  entry := fun e => by
    rw [property_expire Entry.unstamped fun _ _ => rfl,
      property_expire Entry.unstamped fun _ _ => rfl]
    exact agrees.entry e
  stamp := fun e => by
    -- what was held is stale now, and of what was not held a walk meets nothing
    by_cases held : l.Holds e
    · exact .inr (.inr (mem_stale_expire.mpr held))
    · have off : e ∉ l.active := fun h => held (.inl h)
      have off' : e ∉ image.active := agrees.active ▸ off
      rw [stampOf_expire, stampOf_expire, if_neg fun h => off' h.1, if_neg fun h => off h.1]
      exact (agrees.stamp e).imp_right fun h =>
        .inl (h.resolve_right fun stale => held (.inr stale))
  spent := fun e h => by
    rw [size_entries_expire, holds_expire]
    exact agrees.spent e h

theorem stamped (agrees : Agrees faded l image) (known : e < l.entries.size) (g : UInt64) :
    Agrees faded (l.stamp e g) (image.stamp e g) :=
  { agrees with
    size := by
      rw [size_stamp, size_stamp]
      exact agrees.size
    entry := fun d => by
      rw [property_stamp Entry.unstamped fun _ _ => rfl,
        property_stamp Entry.unstamped fun _ _ => rfl]
      exact agrees.entry d
    stamp := fun d => by
      by_cases same : d = e
      · subst same
        refine .inl ?_
        rw [stampOf_stamp_self known, stampOf_stamp_self (agrees.size.symm ▸ known)]
      · rw [stampOf_stamp_ne same, stampOf_stamp_ne same]
        exact agrees.stamp d
    spent := fun d h => by
      rw [size_stamp, holds_stamp]
      exact agrees.spent d h }

theorem renew (agrees : Agrees faded l image) (tidy : l.Tidy) (known : e < l.entries.size)
    (bright : ¬ faded e) : Agrees faded (l.renew e) (image.renew e) := by
  have marked := agrees.stamped known l.generation
  exact
    { agrees with
      active := by
        show e :: image.active.erase e = e :: l.active.erase e
        rw [agrees.active]
      stale := agrees.stale.erase e
      size := by
        show (image.stamp e image.generation).entries.size = _
        rw [agrees.generation]
        exact marked.size
      entry := fun d => by
        show ((image.stamp e image.generation).entries.entry d).unstamped = _
        rw [agrees.generation]
        exact marked.entry d
      stamp := fun d => by
        show (image.stamp e image.generation).stampOf d = (l.stamp e l.generation).stampOf d ∨
          faded d ∨ d ∈ l.stale.erase e
        rw [agrees.generation]
        by_cases same : d = e
        · subst same
          refine .inl ?_
          rw [stampOf_stamp_self known, stampOf_stamp_self (agrees.size.symm ▸ known)]
        · rw [tidy.stale_nodup.mem_erase_iff]
          exact (marked.stamp d).imp_right (.imp_right fun stale => ⟨same, stale⟩)
      spent := fun d h => by
        refine ⟨(marked.spent d h).1, fun held => ?_⟩
        rcases (holds_renew tidy).mp held with old | rfl
        · exact (agrees.spent d h).2 old
        · exact bright h }

theorem park (agrees : Agrees faded l image) (bright : ¬ faded e) :
    Agrees faded (l.park e) (image.park e) := by
  have spent : ∀ d, faded d → d < l.entries.size ∧ ¬ (l.park e).Holds d := by
    intro d h
    refine ⟨(agrees.spent d h).1, fun held => ?_⟩
    rcases holds_park.mp held with old | rfl
    · exact (agrees.spent d h).2 old
    · exact bright h
  rw [Ledger.park] at spent ⊢
  rw [Ledger.park]
  by_cases held : l.Holds e
  · rw [if_pos held, if_pos (agrees.holds.mpr held)]
    exact agrees
  · rw [if_neg held] at spent ⊢
    rw [if_neg fun h => held (agrees.holds.mp h)]
    exact
      { agrees with
        stale := agrees.stale.cons e
        stamp := fun d =>
          (agrees.stamp d).imp_right (.imp_right fun stale => List.mem_cons_of_mem e stale)
        spent }

theorem enrol (agrees : Agrees faded l image) (bright : ¬ faded e) :
    Agrees faded (l.enrol e) (image.enrol e) := by
  have spent : ∀ d, faded d → d < l.entries.size ∧ ¬ (l.enrol e).Holds d := by
    intro d h
    refine ⟨(agrees.spent d h).1, fun held => ?_⟩
    rcases holds_enrol.mp held with old | rfl
    · exact (agrees.spent d h).2 old
    · exact bright h
  rw [Ledger.enrol] at spent ⊢
  rw [Ledger.enrol]
  by_cases held : l.Holds e
  · rw [if_pos held, if_pos (agrees.holds.mpr held)]
    exact agrees
  · rw [if_neg held] at spent ⊢
    rw [if_neg fun h => held (agrees.holds.mp h)]
    exact
      { agrees with
        active := congrArg (e :: ·) agrees.active
        spent }

theorem confirm (agrees : Agrees faded l image) (tidy : l.Tidy) (known : e < l.entries.size)
    (bright : ¬ faded e) (x y : Expiry) :
    Agrees faded (l.confirm x e) (image.confirm y e) := by
  have doubt : (image.stale ≠ [] ∨ (image.entries.entry e).generation ≠ image.generation) ↔
      (l.stale ≠ [] ∨ (l.entries.entry e).generation ≠ l.generation) := by
    show (_ ∨ image.stampOf e ≠ image.generation) ↔ (_ ∨ l.stampOf e ≠ l.generation)
    by_cases clean : l.stale = []
    · have off : e ∉ l.stale := by
        rw [clean]
        exact List.not_mem_nil
      rw [agrees.stamp_eq bright off, agrees.generation, ne_eq, agrees.stale_nil]
    · have pending : image.stale ≠ [] := fun h => clean (agrees.stale_nil.mp h)
      exact iff_of_true (.inl pending) (.inl clean)
  rw [Ledger.confirm, Ledger.confirm, agrees.updating]
  by_cases scanning : l.updating = true
  · rw [if_pos scanning, if_pos scanning]
    exact agrees.renew tidy known bright
  · rw [if_neg scanning, if_neg scanning]
    by_cases h : l.stale ≠ [] ∨ (l.entries.entry e).generation ≠ l.generation
    · rw [if_pos h, if_pos (doubt.mpr h)]
      have demoted := agrees.expire x y
      exact (demoted.stamped (by rw [size_entries_expire]; exact known) 0).park bright
    · rw [if_neg h, if_neg fun h' => h (doubt.mp h')]
      exact agrees.enrol bright

theorem make (agrees : Agrees faded l image) (label : String) (name encname : Bytes) :
    Agrees faded (l.make label name encname) (image.make label name encname) := by
  have grown : (l.make label name encname).entries.size = l.entries.size + 1 := Array.size_push _
  have grown' : (image.make label name encname).entries.size = l.entries.size + 1 := by
    rw [← agrees.size]
    exact Array.size_push _
  have entry : ∀ d, (d ≠ l.entries.size ∧
      (l.make label name encname).entries.entry d = l.entries.entry d ∧
        (image.make label name encname).entries.entry d = image.entries.entry d) ∨
      (image.make label name encname).entries.entry d =
        (l.make label name encname).entries.entry d := by
    intro d
    by_cases new : d = l.entries.size
    · right
      rw [new, entry_make, ← agrees.size, entry_make, agrees.id]
    · by_cases older : d < l.entries.size
      · exact .inl ⟨new, Entries.entry_push_lt older,
          Entries.entry_push_lt (agrees.size.symm ▸ older)⟩
      · right
        rw [Entries.entry_of_le (by omega), Entries.entry_of_le (by omega)]
  exact
    { agrees with
      keys := agrees.keys.cons _
      size := by rw [grown, grown']
      entry := fun d => by
        rcases entry d with ⟨-, old, old'⟩ | same
        · rw [old, old']
          exact agrees.entry d
        · rw [same]
      stamp := fun d => by
        rw [stampOf, stampOf]
        rcases entry d with ⟨-, old, old'⟩ | same
        · rw [old, old']
          exact agrees.stamp d
        · exact .inl (congrArg Entry.generation same)
      spent := fun d h => by
        obtain ⟨lt, off⟩ := agrees.spent d h
        exact ⟨by omega, off⟩ }

theorem insert (agrees : Agrees faded l image) (tidy : l.Tidy) (x y : Expiry) (label : String)
    (name encname : Bytes) :
    Agrees faded (l.insert x label name encname) (image.insert y label name encname) := by
  have bright : ¬ faded l.entries.size := fun h => Nat.lt_irrefl _ (agrees.spent _ h).1
  have known : l.entries.size < (l.make label name encname).entries.size := by
    rw [Ledger.make, Array.size_push]
    exact Nat.lt_succ_self _
  have placed := (agrees.make label name encname).confirm (tidy.make label name encname) known
    bright x y
  rw [Ledger.insert, Ledger.insert, agrees.size]
  exact { placed with tally := congrArg Tally.addInsert placed.tally }

/-- Entries that are destroyed while they are stale fade. -/
theorem dropAll (agrees : Agrees faded l image) (tidy : l.Tidy) (perm : es'.Perm es)
    (nodup : es.Nodup) :
    Agrees (fun e => faded e ∨ (e ∈ l.stale ∧ e ∈ es)) (l.dropAll es) (image.dropAll es') where
  id := by rw [id_dropAll, id_dropAll, agrees.id]
  generation := by rw [generation_dropAll, generation_dropAll, agrees.generation]
  updating := by rw [updating_dropAll, updating_dropAll, agrees.updating]
  active := by
    have tidy' : image.active.Nodup := agrees.active ▸ tidy.active_nodup
    rw [active_dropAll tidy', active_dropAll tidy.active_nodup, agrees.active]
    exact List.filter_congr fun e _ => decide_eq_decide.mpr (not_congr perm.mem_iff)
  stale := by
    have tidy' : image.stale.Nodup := agrees.stale.nodup_iff.mpr tidy.stale_nodup
    rw [stale_dropAll tidy', stale_dropAll tidy.stale_nodup]
    have same : (image.stale.filter fun e => e ∉ es') = image.stale.filter fun e => e ∉ es :=
      List.filter_congr fun e _ => decide_eq_decide.mpr (not_congr perm.mem_iff)
    rw [same]
    exact agrees.stale.filter _
  tally := by rw [tally_dropAll, tally_dropAll, agrees.tally, perm.length_eq]
  keys := by
    rw [keys_dropAll nodup, keys_dropAll (perm.nodup_iff.mpr nodup)]
    have released := agrees.releases_perm perm
    have reversed := (List.reverse_perm _).trans (released.trans (List.reverse_perm _).symm)
    exact reversed.append agrees.keys
  size := by rw [size_dropAll, size_dropAll, agrees.size]
  entry := fun e => by
    rw [entry_dropAll, entry_dropAll]
    have same := agrees.entry e
    by_cases gone : e ∈ es
    · rw [if_pos gone, if_pos (perm.mem_iff.mpr gone)]
      exact congrArg (fun x : Entry => { x with key := none }) same
    · rw [if_neg gone, if_neg fun h => gone (perm.mem_iff.mp h)]
      exact same
  stamp := fun e => by
    rw [stampOf_dropAll, stampOf_dropAll, stale_dropAll tidy.stale_nodup, List.mem_filter]
    rcases agrees.stamp e with same | was | stale
    · exact .inl same
    · exact .inr (.inl (.inl was))
    · by_cases gone : e ∈ es
      · exact .inr (.inl (.inr ⟨stale, gone⟩))
      · exact .inr (.inr ⟨stale, decide_eq_true gone⟩)
  spent := fun e h => by
    rw [size_dropAll, holds_dropAll tidy]
    rcases h with was | ⟨stale, gone⟩
    · obtain ⟨lt, off⟩ := agrees.spent e was
      exact ⟨lt, fun held => off held.1⟩
    · exact ⟨(tidy.fit e (.inr stale)).bound, fun held => held.2 gone⟩

theorem beginUpdate (agrees : Agrees faded l image) (x y : Expiry) (g : UInt64) :
    Agrees faded (l.beginUpdate x g) (image.beginUpdate y g) := by
  rw [Ledger.beginUpdate, Ledger.beginUpdate, agrees.active]
  by_cases begins : l.Begins g
  · rw [if_pos begins, if_pos ((agrees.begins g).mpr begins)]
    split
    · exact { agrees with generation := rfl, updating := rfl }
    · exact { agrees.expire x y with generation := rfl, updating := rfl }
  · rw [if_neg begins, if_neg fun h => begins ((agrees.begins g).mp h)]
    exact agrees

theorem abortUpdate (agrees : Agrees faded l image) (x y : Expiry) :
    Agrees faded (l.abortUpdate x) (image.abortUpdate y) := by
  rw [Ledger.abortUpdate, Ledger.abortUpdate, agrees.updating]
  split
  · exact { agrees.expire x y with updating := rfl }
  · exact agrees

theorem counted (agrees : Agrees faded l image) (outcome : Outcome) :
    Agrees faded (l.counted outcome) (image.counted outcome) := by
  cases outcome with
  | found e => exact { agrees with tally := congrArg (Tally.addLookup · e.isSome) agrees.tally }
  | _ => exact agrees

/-- What faded is told by what fades. -/
theorem congr (agrees : Agrees faded l image) {faded' : Nat → Prop}
    (same : ∀ e, faded' e ↔ faded e) : Agrees faded' l image := by
  obtain rfl : faded' = faded := funext fun e => propext (same e)
  exact agrees

end Agrees

/-- An entry fades that an action destroys while it is stale. -/
def Fades (l : Ledger) (action : Action) (e : Nat) : Prop := e ∈ l.stale ∧ e ∈ l.destroyed action

theorem not_fades (nothing : l.destroyed action = []) : ¬ l.Fades action e := by
  intro h
  rw [Fades, nothing] at h
  exact absurd h.2 List.not_mem_nil

namespace Agrees

/-- An accepted action with the same answer keeps them so, whichever way each of them demotes. -/
theorem act (agrees : Agrees faded l image) (tidy : l.Tidy) (accepts : l.Accepts action)
    (x y : Expiry) (outcome : Outcome) :
    Agrees (fun e => faded e ∨ l.Fades action e) (l.act x action outcome)
      (image.act y action outcome) := by
  have none_fades : ∀ {after after' : Ledger}, l.destroyed action = [] →
      Agrees faded after after' → Agrees (fun e => faded e ∨ l.Fades action e) after after' :=
    fun nothing agree => agree.congr fun _ => or_iff_left (not_fades nothing)
  cases action with
  | insert label name encname => exact none_fades rfl (agrees.insert tidy x y label name encname)
  | update e =>
    have bright : ¬ faded e := fun h => (agrees.spent e h).2 accepts
    exact none_fades rfl (agrees.confirm tidy (tidy.fit e accepts).bound bright x y)
  | lookupName name => exact none_fades rfl (agrees.counted outcome)
  | lookupEncname encname => exact none_fades rfl (agrees.counted outcome)
  | beginUpdate hold g => exact none_fades rfl (agrees.beginUpdate x y g)
  | endUpdate =>
    show Agrees _ l.endUpdate image.endUpdate
    rw [Ledger.endUpdate, Ledger.endUpdate, agrees.updating]
    by_cases scanning : l.updating = true
    · rw [if_pos scanning, if_pos scanning]
      have dropped := agrees.dropAll tidy agrees.stale tidy.stale_nodup
      have ended : Agrees (fun e => faded e ∨ (e ∈ l.stale ∧ e ∈ l.stale))
          { l.dropAll l.stale with updating := false }
          { image.dropAll image.stale with updating := false } := { dropped with updating := rfl }
      have same : l.destroyed .endUpdate = l.stale := if_pos scanning
      exact ended.congr fun e => by rw [Fades, same]
    · rw [if_neg scanning, if_neg scanning]
      exact agrees.congr fun _ => or_iff_left (not_fades (if_neg scanning))
  | abortUpdate => exact none_fades rfl (agrees.abortUpdate x y)
  | purge =>
    show Agrees _ l.purge image.purge
    rw [purge_eq, purge_eq]
    have all : (image.stale ++ image.active).Perm (l.stale ++ l.active) := by
      rw [agrees.active]
      exact agrees.stale.append_right l.active
    exact agrees.dropAll tidy all (nodup_destroyed tidy .purge)

/-- The same keys change hands, in another order. -/
theorem keyEvents (agrees : Agrees faded l image) (action : Action) :
    (image.keyEvents action).Perm (l.keyEvents action) := by
  cases action with
  | insert label name encname => exact .refl _
  | endUpdate =>
    refine agrees.releases_perm ?_
    show (if image.updating then image.stale else []).Perm (if l.updating then l.stale else [])
    rw [agrees.updating]
    split
    · exact agrees.stale
    · exact .refl _
  | purge =>
    refine agrees.releases_perm ?_
    show (image.stale ++ image.active).Perm (l.stale ++ l.active)
    rw [agrees.active]
    exact agrees.stale.append_right l.active
  | _ => exact agrees.releases_perm (.refl _)

/-- Lookups apart, they answer alike. -/
theorem outcome_eq (agrees : Agrees faded l image) {x y : Expiry} {outcome' : Outcome}
    (answers : l.Answers x action outcome) (answers' : image.Answers y action outcome')
    (other : ∀ found, outcome ≠ .found found) : outcome' = outcome := by
  cases action with
  | insert label name encname =>
    rw [show outcome' = _ from answers', show outcome = _ from answers, agrees.size]
  | update e => exact Eq.trans answers' (Eq.symm answers)
  | lookupName name =>
    obtain ⟨found, rfl⟩ := answers
    exact absurd rfl (other found)
  | lookupEncname encname =>
    obtain ⟨found, rfl⟩ := answers
    exact absurd rfl (other found)
  | beginUpdate hold g =>
    rw [show outcome' = _ from answers', show outcome = _ from answers,
      (agrees.beginUpdate x y g).generation]
  | endUpdate =>
    rw [show outcome' = _ from answers', show outcome = _ from answers, agrees.updating,
      agrees.stale.length_eq]
  | abortUpdate => exact Eq.trans answers' (Eq.symm answers)
  | purge =>
    rw [show outcome' = _ from answers', show outcome = _ from answers, agrees.stale.length_eq,
      agrees.active]

end Agrees

end Ledger

end NameCache
