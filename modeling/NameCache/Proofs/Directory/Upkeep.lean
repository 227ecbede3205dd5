/-
  What holds of a directory's ledger between operations, and that every operation keeps it.

  `Ledger.Tidy` is about the lists alone: nothing is listed twice, and what is listed is a live
  entry of the directory.  `Ledger.Sound` adds how the generation, the update flag and the lists
  hang together.  Demoting keeps the first and, in the middle of an update, breaks the second: the
  generation is zero until the update goes on or is given up.
-/
import NameCache.Proofs.Directory.Ledger

namespace NameCache

namespace Ledger

/-- An entry that the directory may list: a live one of its own. -/
structure Fit (l : Ledger) (e : Nat) : Prop where
  bound : e < l.entries.size
  live : (l.entries.entry e).live
  own : (l.entries.entry e).dir = l.id

/-- Nothing is listed twice, and what is listed is a live entry of the directory. -/
structure Tidy (l : Ledger) : Prop where
  active_nodup : l.active.Nodup
  stale_nodup : l.stale.Nodup
  disjoint : ∀ e, e ∈ l.active → e ∉ l.stale
  fit : ∀ e, l.Holds e → l.Fit e

/-- What holds between operations. -/
structure Sound (l : Ledger) : Prop extends l.Tidy where
  /-- Outside an update, at most one list has entries. -/
  one_list : l.updating = false → l.active = [] ∨ l.stale = []
  /-- Active entries have the generation of the directory. -/
  current : ∀ e ∈ l.active, (l.entries.entry e).generation = l.generation
  /-- Outside an update, a directory with stale entries has no generation. -/
  doubt : l.updating = false → l.stale ≠ [] → l.generation = 0
  /-- An update has a generation. -/
  scan : l.updating = true → l.generation ≠ 0

variable {l : Ledger} {e d : Nat} {es : List Nat} {g : UInt64} {expiry : Expiry}

/-! ## What is listed after an operation -/

section Lists

@[simp] theorem active_stamp : (l.stamp e g).active = l.active := rfl

theorem holds_stamp : (l.stamp e g).Holds d ↔ l.Holds d := Iff.rfl

/-- A stamp changes nothing of an entry but its generation. -/
theorem property_stamp {β : Type} (p : Entry → β)
    (h : ∀ (x : Entry) (g : UInt64), p { x with generation := g } = p x) (d : Nat) :
    p ((l.stamp e g).entries.entry d) = p (l.entries.entry d) :=
  Entries.property_modify p (fun x => h x g) d

@[simp] theorem active_expire : (l.expire expiry).active = [] := by
  rw [expire]
  by_cases h : expiry = .swap ∧ l.stale = []
  · rw [if_pos h]
    exact h.2
  · rw [if_neg h]
    rfl

theorem stale_expire : (l.expire expiry).stale =
    if expiry = .swap ∧ l.stale = [] then l.active else l.active.reverse ++ l.stale := by
  rw [expire]
  split <;> rfl

theorem mem_stale_expire : d ∈ (l.expire expiry).stale ↔ l.Holds d := by
  rw [stale_expire, Holds]
  by_cases h : expiry = .swap ∧ l.stale = []
  · rw [if_pos h, h.2]
    simp
  · rw [if_neg h, List.mem_append, List.mem_reverse]

theorem holds_expire : (l.expire expiry).Holds d ↔ l.Holds d := by
  rw [Holds, active_expire, mem_stale_expire]
  exact or_iff_right List.not_mem_nil

theorem size_entries_expire : (l.expire expiry).entries.size = l.entries.size := by
  rw [expire]
  split
  · rfl
  · exact Entries.size_stampAll

/-- Demoting changes nothing of an entry but its generation. -/
theorem property_expire {β : Type} (p : Entry → β)
    (h : ∀ (x : Entry) (g : UInt64), p { x with generation := g } = p x) (d : Nat) :
    p ((l.expire expiry).entries.entry d) = p (l.entries.entry d) := by
  rw [expire]
  split
  · rfl
  · exact Entries.property_stampAll p h d

@[simp] theorem id_expire : (l.expire expiry).id = l.id := by
  rw [expire]
  split <;> rfl

@[simp] theorem updating_expire : (l.expire expiry).updating = l.updating := by
  rw [expire]
  split <;> rfl

theorem holds_renew (tidy : l.Tidy) : (l.renew e).Holds d ↔ l.Holds d ∨ d = e := by
  rw [Holds, Holds]
  show d ∈ e :: l.active.erase e ∨ d ∈ l.stale.erase e ↔ _
  rw [List.mem_cons, tidy.active_nodup.mem_erase_iff, tidy.stale_nodup.mem_erase_iff]
  by_cases h : d = e
  · simp [h]
  · simp [h]

theorem holds_park : (l.park e).Holds d ↔ l.Holds d ∨ d = e := by
  rw [park]
  split
  case isTrue h =>
    exact ⟨.inl, fun hd => hd.elim (fun hd => hd) fun heq => heq ▸ h⟩
  case isFalse =>
    rw [Holds, Holds]
    show d ∈ l.active ∨ d ∈ e :: l.stale ↔ _
    rw [List.mem_cons]
    constructor
    · rintro (h | h | h)
      · exact .inl (.inl h)
      · exact .inr h
      · exact .inl (.inr h)
    · rintro ((h | h) | h)
      · exact .inl h
      · exact .inr (.inr h)
      · exact .inr (.inl h)

theorem holds_enrol : (l.enrol e).Holds d ↔ l.Holds d ∨ d = e := by
  rw [enrol]
  split
  case isTrue h =>
    exact ⟨.inl, fun hd => hd.elim (fun hd => hd) fun heq => heq ▸ h⟩
  case isFalse =>
    rw [Holds, Holds]
    show d ∈ e :: l.active ∨ d ∈ l.stale ↔ _
    rw [List.mem_cons]
    constructor
    · rintro ((h | h) | h)
      · exact .inr h
      · exact .inl (.inl h)
      · exact .inl (.inr h)
    · rintro ((h | h) | h)
      · exact .inl (.inr h)
      · exact .inr h
      · exact .inl (.inl h)

theorem holds_confirm (tidy : l.Tidy) : (l.confirm expiry e).Holds d ↔ l.Holds d ∨ d = e := by
  rw [confirm]
  split
  · exact holds_renew tidy
  · split
    · rw [holds_park, holds_stamp, holds_expire]
    · exact holds_enrol

@[simp] theorem id_confirm : (l.confirm expiry e).id = l.id := by
  rw [confirm, park, enrol]
  split
  · rfl
  · split
    · split
      · exact id_expire
      · exact id_expire
    · split <;> rfl

theorem active_dropAll (tidy : l.active.Nodup) :
    (l.dropAll es).active = l.active.filter fun e => e ∉ es := by
  induction es generalizing l with
  | nil => exact (List.filter_eq_self.mpr fun _ _ => by simp).symm
  | cons e rest ih =>
    show ((l.drop e).dropAll rest).active = _
    rw [ih (tidy.erase e)]
    show (l.active.erase e).filter _ = _
    rw [tidy.erase_eq_filter, List.filter_filter]
    exact List.filter_congr fun d _ => by rw [Bool.eq_iff_iff]; simp [and_comm]

theorem stale_dropAll (tidy : l.stale.Nodup) :
    (l.dropAll es).stale = l.stale.filter fun e => e ∉ es := by
  induction es generalizing l with
  | nil => exact (List.filter_eq_self.mpr fun _ _ => by simp).symm
  | cons e rest ih =>
    show ((l.drop e).dropAll rest).stale = _
    rw [ih (tidy.erase e)]
    show (l.stale.erase e).filter _ = _
    rw [tidy.erase_eq_filter, List.filter_filter]
    exact List.filter_congr fun d _ => by rw [Bool.eq_iff_iff]; simp [and_comm]

/-- Without its stale entries, a directory has its active ones. -/
theorem active_dropAll_stale (tidy : l.Tidy) : (l.dropAll l.stale).active = l.active := by
  rw [active_dropAll tidy.active_nodup, List.filter_eq_self]
  exact fun e he => decide_eq_true (tidy.disjoint e he)

theorem stale_dropAll_stale (tidy : l.Tidy) : (l.dropAll l.stale).stale = [] := by
  rw [stale_dropAll tidy.stale_nodup, List.filter_eq_nil_iff]
  exact fun e he h => of_decide_eq_true h he

@[simp] theorem generation_dropAll : (l.dropAll es).generation = l.generation := by
  induction es generalizing l with
  | nil => rfl
  | cons e rest ih => exact ih

@[simp] theorem updating_dropAll : (l.dropAll es).updating = l.updating := by
  induction es generalizing l with
  | nil => rfl
  | cons e rest ih => exact ih

theorem holds_beginUpdate : (l.beginUpdate expiry g).Holds d ↔ l.Holds d := by
  rw [beginUpdate]
  split
  · split
    · exact Iff.rfl
    · exact holds_expire
  · exact Iff.rfl

theorem holds_drop (tidy : l.Tidy) : (l.drop e).Holds d ↔ l.Holds d ∧ d ≠ e := by
  rw [Holds, Holds]
  show d ∈ l.active.erase e ∨ d ∈ l.stale.erase e ↔ _
  rw [tidy.active_nodup.mem_erase_iff, tidy.stale_nodup.mem_erase_iff]
  constructor
  · rintro (⟨hne, h⟩ | ⟨hne, h⟩)
    · exact ⟨.inl h, hne⟩
    · exact ⟨.inr h, hne⟩
  · rintro ⟨h | h, hne⟩
    · exact .inl ⟨hne, h⟩
    · exact .inr ⟨hne, h⟩

theorem holds_dropAll (tidy : l.Tidy) : (l.dropAll es).Holds d ↔ l.Holds d ∧ d ∉ es := by
  rw [Holds, Holds, active_dropAll tidy.active_nodup, stale_dropAll tidy.stale_nodup,
    List.mem_filter, List.mem_filter, ← or_and_right, decide_eq_true_iff]

end Lists

/-! ## Tidiness -/

/-- Only the size, the keys and the directories matter to what may be listed. -/
theorem Fit.congr (fit : l.Fit e) {l' : Ledger} (size : l.entries.size ≤ l'.entries.size)
    (live : (l'.entries.entry e).live = (l.entries.entry e).live)
    (own : (l'.entries.entry e).dir = (l.entries.entry e).dir) (id : l'.id = l.id) : l'.Fit e where
  bound := Nat.lt_of_lt_of_le fit.bound size
  live := live.trans fit.live
  own := own.trans (fit.own.trans id.symm)

theorem Fit.stamp (fit : l.Fit d) (e : Nat) (g : UInt64) : (l.stamp e g).Fit d := by
  refine fit.congr ?_ ?_ ?_ rfl
  · exact Nat.le_of_eq Entries.size_modify.symm
  · exact property_stamp Entry.live (fun _ _ => rfl) d
  · exact property_stamp Entry.dir (fun _ _ => rfl) d

theorem Fit.expire (fit : l.Fit d) : (l.expire expiry).Fit d := by
  refine fit.congr ?_ ?_ ?_ id_expire
  · exact Nat.le_of_eq size_entries_expire.symm
  · exact property_expire Entry.live (fun _ _ => rfl) d
  · exact property_expire Entry.dir (fun _ _ => rfl) d

theorem Fit.make (fit : l.Fit d) (label : String) (name encname : Bytes) :
    (l.make label name encname).Fit d := by
  have same : (l.make label name encname).entries.entry d = l.entries.entry d :=
    Entries.entry_push_lt fit.bound
  refine fit.congr ?_ (by rw [same]) (by rw [same]) rfl
  rw [Ledger.make, Array.size_push]
  exact Nat.le_succ _

/-- The entry made has its names and its key, and is of no generation. -/
theorem entry_make (l : Ledger) (label : String) (name encname : Bytes) :
    (l.make label name encname).entries.entry l.entries.size =
      { dir := l.id, name, encname, key := some label } :=
  Entries.entry_push_self

/-- The entry made may be listed. -/
theorem fit_made (l : Ledger) (label : String) (name encname : Bytes) :
    (l.make label name encname).Fit l.entries.size := by
  constructor
  · rw [Ledger.make, Array.size_push]
    exact Nat.lt_succ_self _
  · rw [entry_make]
    rfl
  · rw [entry_make]
    rfl

theorem Fit.drop (fit : l.Fit d) (h : d ≠ e) : (l.drop e).Fit d := by
  have same : (l.drop e).entries.entry d = l.entries.entry d := Entries.entry_modify_ne h
  exact fit.congr (Nat.le_of_eq Entries.size_modify.symm) (by rw [same]) (by rw [same]) rfl

namespace Tidy

theorem stamp (tidy : l.Tidy) (e : Nat) (g : UInt64) : (l.stamp e g).Tidy where
  active_nodup := tidy.active_nodup
  stale_nodup := tidy.stale_nodup
  disjoint := tidy.disjoint
  fit := fun d hd => (tidy.fit d hd).stamp e g

theorem make (tidy : l.Tidy) (label : String) (name encname : Bytes) :
    (l.make label name encname).Tidy where
  active_nodup := tidy.active_nodup
  stale_nodup := tidy.stale_nodup
  disjoint := tidy.disjoint
  fit := fun d hd => (tidy.fit d hd).make label name encname

theorem expire (tidy : l.Tidy) : (l.expire expiry).Tidy := by
  constructor
  case active_nodup => rw [active_expire]; exact List.nodup_nil
  case stale_nodup =>
    rw [stale_expire]
    split
    · exact tidy.active_nodup
    · rw [List.nodup_append]
      refine ⟨(List.reverse_perm _).nodup_iff.mpr tidy.active_nodup, tidy.stale_nodup, ?_⟩
      intro a ha b hb heq
      exact tidy.disjoint a (List.mem_reverse.mp ha) (heq ▸ hb)
  case disjoint => rw [active_expire]; exact fun e he => absurd he List.not_mem_nil
  case fit => exact fun e he => (tidy.fit e (holds_expire.mp he)).expire

theorem renew (tidy : l.Tidy) (fit : l.Fit e) : (l.renew e).Tidy := by
  constructor
  case active_nodup =>
    refine List.nodup_cons.mpr ⟨fun h => ?_, tidy.active_nodup.erase e⟩
    exact (tidy.active_nodup.mem_erase_iff.mp h).1 rfl
  case stale_nodup => exact tidy.stale_nodup.erase e
  case disjoint =>
    intro d hd hs
    obtain ⟨hne, hs⟩ := tidy.stale_nodup.mem_erase_iff.mp hs
    rcases List.mem_cons.mp hd with h | h
    · exact hne h
    · exact tidy.disjoint d (List.mem_of_mem_erase h) hs
  case fit =>
    intro d hd
    have old : l.Fit d := by
      rcases (holds_renew tidy).mp hd with h | rfl
      · exact tidy.fit d h
      · exact fit
    exact (old.stamp e l.generation).congr (Nat.le_refl _) rfl rfl rfl

theorem park (tidy : l.Tidy) (fit : l.Fit e) : (l.park e).Tidy := by
  have held : ∀ d, (l.park e).Holds d → l.Fit d := by
    intro d hd
    rcases holds_park.mp hd with h | rfl
    · exact tidy.fit d h
    · exact fit
  rw [Ledger.park] at held ⊢
  split
  case isTrue => exact tidy
  case isFalse new =>
    rw [if_neg new] at held
    constructor
    case active_nodup => exact tidy.active_nodup
    case stale_nodup => exact List.nodup_cons.mpr ⟨fun h => new (.inr h), tidy.stale_nodup⟩
    case disjoint =>
      intro d hd hs
      rcases List.mem_cons.mp hs with rfl | h
      · exact new (.inl hd)
      · exact tidy.disjoint d hd h
    case fit => exact fun d hd => (held d hd).congr (Nat.le_refl _) rfl rfl rfl

theorem enrol (tidy : l.Tidy) (fit : l.Fit e) : (l.enrol e).Tidy := by
  have held : ∀ d, (l.enrol e).Holds d → l.Fit d := by
    intro d hd
    rcases holds_enrol.mp hd with h | rfl
    · exact tidy.fit d h
    · exact fit
  rw [Ledger.enrol] at held ⊢
  split
  case isTrue => exact tidy
  case isFalse new =>
    rw [if_neg new] at held
    constructor
    case active_nodup => exact List.nodup_cons.mpr ⟨fun h => new (.inl h), tidy.active_nodup⟩
    case stale_nodup => exact tidy.stale_nodup
    case disjoint =>
      intro d hd hs
      rcases List.mem_cons.mp hd with rfl | h
      · exact new (.inr hs)
      · exact tidy.disjoint d h hs
    case fit => exact fun d hd => (held d hd).congr (Nat.le_refl _) rfl rfl rfl

theorem drop (tidy : l.Tidy) (e : Nat) : (l.drop e).Tidy where
  active_nodup := tidy.active_nodup.erase e
  stale_nodup := tidy.stale_nodup.erase e
  disjoint := fun d hd hs =>
    tidy.disjoint d (List.mem_of_mem_erase hd) (List.mem_of_mem_erase hs)
  fit := fun d hd =>
    have ⟨held, hne⟩ := (holds_drop tidy).mp hd
    (tidy.fit d held).drop hne

theorem dropAll (tidy : l.Tidy) (es : List Nat) : (l.dropAll es).Tidy := by
  induction es generalizing l with
  | nil => exact tidy
  | cons e rest ih => exact ih (tidy.drop e)

end Tidy

/-- A purged directory holds nothing. -/
theorem not_holds_purge (tidy : l.Tidy) : ¬ l.purge.Holds d := by
  intro h
  obtain ⟨left, off_active⟩ := (holds_dropAll (tidy.dropAll l.stale)).mp h
  obtain ⟨held, off_stale⟩ := (holds_dropAll tidy).mp left
  exact held.elim off_active off_stale

/-! ## Soundness -/

namespace Sound

/-- Outside an update, a demoted directory is sound. -/
theorem of_expired (tidy : l.Tidy) (active : l.active = []) (generation : l.generation = 0)
    (idle : l.updating = false) : l.Sound where
  toTidy := tidy
  one_list := fun _ => .inl active
  current := fun _ he => absurd (active ▸ he) List.not_mem_nil
  doubt := fun _ _ => generation
  scan := fun h => absurd (idle.symm.trans h) Bool.false_ne_true

theorem make (sound : l.Sound) (label : String) (name encname : Bytes) :
    (l.make label name encname).Sound where
  toTidy := sound.toTidy.make label name encname
  one_list := sound.one_list
  current := fun e he => by
    have same : (l.make label name encname).entries.entry e = l.entries.entry e :=
      Entries.entry_push_lt (sound.fit e (.inl he)).bound
    rw [same]
    exact sound.current e he
  doubt := sound.doubt
  scan := sound.scan

theorem confirm (sound : l.Sound) (fit : l.Fit e) : (l.confirm expiry e).Sound := by
  rw [Ledger.confirm]
  cases idle : l.updating with
  | true =>
    rw [if_pos rfl]
    refine ⟨sound.toTidy.renew fit, fun h => ?_, fun d hd => ?_, fun h => ?_, sound.scan⟩
    · exact absurd (idle.symm.trans h) (by decide)
    · show (Entries.entry (l.entries.modify e _) d).generation = l.generation
      by_cases h : d = e
      · rw [h, Entries.entry_modify_self fit.bound]
      · rw [Entries.entry_modify_ne h]
        rcases List.mem_cons.mp hd with heq | hd
        · exact absurd heq h
        · exact sound.current d (List.mem_of_mem_erase hd)
    · exact absurd (idle.symm.trans h) (by decide)
  | false =>
    rw [if_neg (by decide)]
    split
    case isTrue =>
      -- all entries end up stale, whichever it was that was out of date
      have expired : (l.expire expiry).Tidy := sound.toTidy.expire
      have tidy := (expired.stamp e 0).park (fit.expire.stamp e 0)
      refine of_expired tidy ?_ ?_ ?_
      · rw [park, apply_ite Ledger.active, active_stamp, active_expire, ite_self]
      · rw [park, apply_ite Ledger.generation]
        exact ite_self _
      · rw [park, apply_ite Ledger.updating]
        exact (ite_self _).trans (updating_expire.trans idle)
    case isFalse h =>
      have nothing : l.stale = [] := Classical.byContradiction fun hs => h (.inl hs)
      have agree : (l.entries.entry e).generation = l.generation :=
        Classical.byContradiction fun hg => h (.inr hg)
      have tidy := sound.toTidy.enrol fit
      rw [enrol] at tidy ⊢
      split
      case isTrue => exact sound
      case isFalse new =>
        rw [if_neg new] at tidy
        refine ⟨tidy, fun _ => .inr nothing, fun d hd => ?_, sound.doubt, sound.scan⟩
        rcases List.mem_cons.mp hd with rfl | hd
        · exact agree
        · exact sound.current d hd

theorem drop (sound : l.Sound) (e : Nat) : (l.drop e).Sound where
  toTidy := sound.toTidy.drop e
  one_list := fun idle => by
    show l.active.erase e = [] ∨ l.stale.erase e = []
    rcases sound.one_list idle with h | h
    · exact .inl (by rw [h]; rfl)
    · exact .inr (by rw [h]; rfl)
  current := fun d hd => by
    obtain ⟨hne, hd⟩ := sound.active_nodup.mem_erase_iff.mp hd
    have same : (l.drop e).entries.entry d = l.entries.entry d := Entries.entry_modify_ne hne
    rw [same]
    exact sound.current d hd
  doubt := fun idle hs => sound.doubt idle fun h => hs (by
    show l.stale.erase e = []
    rw [h]
    rfl)
  scan := sound.scan

theorem dropAll (sound : l.Sound) (es : List Nat) : (l.dropAll es).Sound := by
  induction es generalizing l with
  | nil => exact sound
  | cons e rest ih => exact ih (sound.drop e)

theorem beginUpdate (sound : l.Sound) : (l.beginUpdate expiry g).Sound := by
  rw [Ledger.beginUpdate]
  split
  case isFalse => exact sound
  case isTrue begins =>
    have start : ∀ l' : Ledger, l'.Tidy → l'.active = [] →
        ({ l' with generation := g, updating := true } : Ledger).Sound := by
      intro l' tidy active
      refine ⟨⟨tidy.active_nodup, tidy.stale_nodup, tidy.disjoint, fun e he => ?_⟩,
        fun h => absurd h.symm Bool.false_ne_true, fun e he => ?_,
        fun h => absurd h.symm Bool.false_ne_true,
        fun _ => begins.1⟩
      · exact (tidy.fit e he).congr (Nat.le_refl _) rfl rfl rfl
      · exact absurd (active ▸ he) List.not_mem_nil
    split
    case isTrue active => exact start l sound.toTidy active
    case isFalse => exact start _ sound.toTidy.expire active_expire

theorem endUpdate (sound : l.Sound) : l.endUpdate.Sound := by
  rw [Ledger.endUpdate]
  split
  case isFalse => exact sound
  case isTrue scanning =>
    have dropped := sound.dropAll l.stale
    refine ⟨⟨dropped.active_nodup, dropped.stale_nodup, dropped.disjoint, fun e he => ?_⟩,
      fun _ => .inr (stale_dropAll_stale sound.toTidy), dropped.current, fun _ h => ?_,
      fun h => absurd h Bool.false_ne_true⟩
    · exact (dropped.fit e he).congr (Nat.le_refl _) rfl rfl rfl
    · exact absurd (stale_dropAll_stale sound.toTidy) h

theorem abortUpdate (sound : l.Sound) : (l.abortUpdate expiry).Sound := by
  rw [Ledger.abortUpdate]
  split
  case isFalse => exact sound
  case isTrue =>
    have tidy : (l.expire expiry).Tidy := sound.toTidy.expire
    refine of_expired ⟨tidy.active_nodup, tidy.stale_nodup, tidy.disjoint, fun e he => ?_⟩
      active_expire rfl rfl
    exact (tidy.fit e he).congr (Nat.le_refl _) rfl rfl rfl

end Sound

end Ledger

end NameCache
