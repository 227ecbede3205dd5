/-
  What an accepted action does to the lists.

  A history needs four facts about one step: only an insertion brings an entry, and its number is
  the next one (`act_gains`); nothing but the end of an update and a purge lets go of an entry
  (`holds_act`); and how the active list and the generation look afterwards, for each operation.
-/
import NameCache.Proofs.Directory.Deeds

namespace NameCache

namespace Ledger

variable {l : Ledger} {e d : Nat} {es : List Nat} {g : UInt64} {expiry : Expiry} {action : Action}
  {outcome : Outcome} {label : String} {name encname : Bytes}

/-! ## How many entries there are -/

@[simp] theorem size_stamp : (l.stamp e g).entries.size = l.entries.size := Entries.size_modify

@[simp] theorem entries_park : (l.park e).entries = l.entries := by
  rw [park]
  split <;> rfl

@[simp] theorem entries_enrol : (l.enrol e).entries = l.entries := by
  rw [enrol]
  split <;> rfl

@[simp] theorem size_confirm : (l.confirm expiry e).entries.size = l.entries.size := by
  rw [confirm]
  split
  · exact size_stamp
  · split
    · rw [entries_park, size_stamp, size_entries_expire]
    · rw [entries_enrol]

@[simp] theorem size_insert :
    (l.insert expiry label name encname).entries.size = l.entries.size + 1 := by
  show ((l.make label name encname).confirm expiry l.entries.size).entries.size = _
  rw [size_confirm]
  exact Array.size_push _

@[simp] theorem size_dropAll : (l.dropAll es).entries.size = l.entries.size := by
  induction es generalizing l with
  | nil => rfl
  | cons e rest ih => exact ih.trans Entries.size_modify

@[simp] theorem size_beginUpdate : (l.beginUpdate expiry g).entries.size = l.entries.size := by
  rw [beginUpdate]
  split
  · split
    · rfl
    · exact size_entries_expire
  · rfl

@[simp] theorem size_endUpdate : l.endUpdate.entries.size = l.entries.size := by
  rw [endUpdate]
  split
  · exact size_dropAll
  · rfl

@[simp] theorem size_abortUpdate : (l.abortUpdate expiry).entries.size = l.entries.size := by
  rw [abortUpdate]
  split
  · exact size_entries_expire
  · rfl

/-! ## What is held -/

theorem holds_insert (tidy : l.Tidy) :
    (l.insert expiry label name encname).Holds d ↔ l.Holds d ∨ d = l.entries.size :=
  holds_confirm (tidy.make label name encname)

theorem holds_endUpdate (tidy : l.Tidy) :
    l.endUpdate.Holds d ↔ l.Holds d ∧ ¬ (l.updating = true ∧ d ∈ l.stale) := by
  rw [endUpdate]
  split
  case isTrue scanning => exact (holds_dropAll tidy).trans (by simp [scanning])
  case isFalse idle => simp [idle]

theorem holds_abortUpdate : (l.abortUpdate expiry).Holds d ↔ l.Holds d := by
  rw [abortUpdate]
  split
  · exact holds_expire
  · exact Iff.rfl

theorem holds_counted : (l.counted outcome).Holds d ↔ l.Holds d := by
  cases outcome <;> exact Iff.rfl

theorem entries_counted : (l.counted outcome).entries = l.entries := by
  cases outcome <;> rfl

/-- Only an insertion brings an entry, and that is the next one. -/
theorem act_gains (tidy : l.Tidy) (accepts : l.Accepts action)
    (answers : l.Answers expiry action outcome) :
    ((∃ label name encname, action = .insert label name encname) ∧
      outcome = .made l.entries.size ∧
      (l.act expiry action outcome).entries.size = l.entries.size + 1 ∧
      ∀ d, (l.act expiry action outcome).Holds d ↔ l.Holds d ∨ d = l.entries.size) ∨
    ((∀ e, outcome ≠ .made e) ∧
      (l.act expiry action outcome).entries.size = l.entries.size ∧
      ∀ d, (l.act expiry action outcome).Holds d → l.Holds d) := by
  cases action with
  | insert label name encname =>
    exact .inl ⟨⟨label, name, encname, rfl⟩, answers, size_insert, fun d => holds_insert tidy⟩
  | update e =>
    obtain rfl : outcome = .done := answers
    refine .inr ⟨nofun, size_confirm, fun d h => ?_⟩
    rcases (holds_confirm tidy).mp h with held | rfl
    · exact held
    · exact accepts
  | lookupName name =>
    obtain ⟨found, rfl⟩ := answers
    exact .inr ⟨nofun, congrArg Array.size entries_counted, fun d => holds_counted.mp⟩
  | lookupEncname encname =>
    obtain ⟨found, rfl⟩ := answers
    exact .inr ⟨nofun, congrArg Array.size entries_counted, fun d => holds_counted.mp⟩
  | beginUpdate hold g =>
    obtain rfl : outcome = _ := answers
    exact .inr ⟨nofun, size_beginUpdate, fun d => holds_beginUpdate.mp⟩
  | endUpdate =>
    obtain rfl : outcome = _ := answers
    exact .inr ⟨nofun, size_endUpdate, fun d h => ((holds_endUpdate tidy).mp h).1⟩
  | abortUpdate =>
    obtain rfl : outcome = .done := answers
    exact .inr ⟨nofun, size_abortUpdate, fun d => holds_abortUpdate.mp⟩
  | purge =>
    obtain rfl : outcome = _ := answers
    refine .inr ⟨nofun, ?_, fun d h => absurd h (not_holds_purge tidy)⟩
    exact (size_dropAll (l := l.dropAll l.stale)).trans size_dropAll

/-- Only the end of an update and a purge let go of anything. -/
theorem holds_act (tidy : l.Tidy) (held : l.Holds d)
    (ends : action = .endUpdate → ¬ (l.updating = true ∧ d ∈ l.stale)) (purges : action ≠ .purge) :
    (l.act expiry action outcome).Holds d := by
  cases action with
  | insert label name encname => exact (holds_insert tidy).mpr (.inl held)
  | update e => exact (holds_confirm tidy).mpr (.inl held)
  | lookupName name => exact holds_counted.mpr held
  | lookupEncname encname => exact holds_counted.mpr held
  | beginUpdate hold g => exact holds_beginUpdate.mpr held
  | endUpdate => exact (holds_endUpdate tidy).mpr ⟨held, ends rfl⟩
  | abortUpdate => exact holds_abortUpdate.mpr held
  | purge => exact absurd rfl purges

/-! ## What is active -/

/-- Outside an update an entry of the directory stays where it is when it is confirmed. -/
theorem active_confirm_of_idle (sound : l.Sound) (idle : l.updating = false) (held : l.Holds e) :
    (l.confirm expiry e).active = l.active := by
  rw [confirm, if_neg (by rw [idle]; decide)]
  split
  case isFalse => rw [enrol, if_pos held]
  case isTrue doubt =>
    -- the entry is not current, so it is stale, and then nothing was active
    have pending : l.stale ≠ [] := by
      rcases doubt with h | outdated
      · exact h
      · intro clean
        have active : e ∈ l.active := held.resolve_right (by rw [clean]; exact List.not_mem_nil)
        exact outdated (sound.current e active)
    have nothing : l.active = [] := (sound.one_list idle).resolve_right pending
    rw [park, apply_ite Ledger.active, active_stamp, active_expire, ite_self, nothing]

/-- An insertion makes the entry the first active one, or leaves nothing active. -/
theorem active_insert (sound : l.Sound) :
    (l.insert expiry label name encname).active =
      if l.updating = true ∨ (l.generation = 0 ∧ l.stale = []) then l.entries.size :: l.active
      else [] := by
  have bound : ∀ e, l.Holds e → e < l.entries.size := fun e he => (sound.fit e he).bound
  have off : ¬ l.Holds l.entries.size := fun h => absurd (bound _ h) (Nat.lt_irrefl _)
  show ((l.make label name encname).confirm expiry l.entries.size).active = _
  cases scanning : l.updating with
  | true =>
    have now : (l.make label name encname).updating = true := scanning
    rw [confirm, if_pos now, if_pos (.inl rfl)]
    show l.entries.size :: l.active.erase l.entries.size = _
    rw [List.erase_of_not_mem fun h => off (.inl h)]
  | false =>
    have now : (l.make label name encname).updating = false := scanning
    rw [confirm, if_neg (by rw [now]; decide), entry_make]
    by_cases agree : l.generation = 0 ∧ l.stale = []
    · have clean : ¬ ((l.make label name encname).stale ≠ [] ∨
          0 ≠ (l.make label name encname).generation) := by
        rintro (h | h)
        · exact h agree.2
        · exact h agree.1.symm
      have new : ¬ (l.make label name encname).Holds l.entries.size := off
      rw [if_neg clean, if_pos (.inr agree), enrol, if_neg new]
      rfl
    · have doubt : (l.make label name encname).stale ≠ [] ∨
          0 ≠ (l.make label name encname).generation := by
        by_cases h : l.generation = 0
        · exact .inl fun clean => agree ⟨h, clean⟩
        · exact .inr fun heq => h heq.symm
      have idle : ¬ (false = true ∨ (l.generation = 0 ∧ l.stale = [])) := by
        rintro (h | h)
        · exact Bool.false_ne_true h
        · exact agree h
      rw [if_pos doubt, if_neg idle, park, apply_ite Ledger.active, active_stamp, active_expire,
        ite_self]

theorem active_beginUpdate : (l.beginUpdate expiry g).active =
    if l.Begins g then [] else l.active := by
  rw [beginUpdate]
  split
  · split
    case isTrue nothing => exact nothing
    case isFalse => exact active_expire
  · rfl

theorem active_endUpdate (tidy : l.Tidy) : l.endUpdate.active = l.active := by
  rw [endUpdate]
  split
  · exact active_dropAll_stale tidy
  · rfl

theorem active_abortUpdate : (l.abortUpdate expiry).active =
    if l.updating = true then [] else l.active := by
  rw [abortUpdate]
  split
  · exact active_expire
  · rfl

theorem active_purge (tidy : l.Tidy) : l.purge.active = [] := by
  refine List.eq_nil_iff_forall_not_mem.mpr fun e he => ?_
  exact not_holds_purge tidy (.inl he)

/-! ## The generation and the update flag -/

@[simp] theorem updating_confirm : (l.confirm expiry e).updating = l.updating := by
  rw [confirm, park, enrol]
  split
  · rfl
  · split
    · split
      · exact updating_expire
      · exact updating_expire
    · split <;> rfl

/-- Confirming an entry drops the generation or leaves it, and leaves it during an update. -/
theorem generation_confirm (l : Ledger) (expiry : Expiry) (e : Nat) :
    (l.confirm expiry e).generation = l.generation ∨
    (l.updating = false ∧ (l.confirm expiry e).generation = 0) := by
  rw [confirm]
  cases l.updating with
  | true => exact .inl rfl
  | false =>
    rw [if_neg Bool.false_ne_true, park, enrol]
    split
    · exact .inr ⟨rfl, by split <;> rfl⟩
    · exact .inl (by split <;> rfl)

/-- A new entry is of no generation, so outside an update none is left. -/
theorem generation_insert : (l.insert expiry label name encname).generation =
    if l.updating = true then l.generation else 0 := by
  show ((l.make label name encname).confirm expiry l.entries.size).generation = _
  cases scanning : l.updating with
  | true =>
    have now : (l.make label name encname).updating = true := scanning
    rw [confirm, if_pos now]
    rfl
  | false =>
    have now : ¬ (l.make label name encname).updating = true :=
      fun h => Bool.false_ne_true (scanning.symm.trans h)
    rw [confirm, if_neg now, if_neg Bool.false_ne_true, entry_make, park, enrol]
    split
    · split <;> rfl
    case isFalse agree =>
      have zero : l.generation = 0 :=
        Classical.byContradiction fun h => agree (.inr fun heq => h heq.symm)
      split <;> exact zero

theorem generation_beginUpdate : (l.beginUpdate expiry g).generation =
    if l.Begins g then g else l.generation := by
  rw [beginUpdate]
  split <;> rfl

theorem updating_beginUpdate : (l.beginUpdate expiry g).updating =
    if l.Begins g then true else l.updating := by
  rw [beginUpdate]
  split <;> rfl

theorem generation_endUpdate : l.endUpdate.generation = l.generation := by
  rw [endUpdate]
  split
  · exact generation_dropAll
  · rfl

theorem updating_endUpdate : l.endUpdate.updating = false := by
  rw [endUpdate]
  split
  · rfl
  case isFalse idle => exact Bool.eq_false_iff.mpr idle

theorem generation_abortUpdate : (l.abortUpdate expiry).generation =
    if l.updating = true then 0 else l.generation := by
  rw [abortUpdate]
  split <;> rfl

theorem updating_abortUpdate : (l.abortUpdate expiry).updating = false := by
  rw [abortUpdate]
  split
  · rfl
  case isFalse idle => exact Bool.eq_false_iff.mpr idle

theorem generation_purge : l.purge.generation = l.generation :=
  (generation_dropAll (l := l.dropAll l.stale)).trans generation_dropAll

theorem updating_purge : l.purge.updating = l.updating :=
  (updating_dropAll (l := l.dropAll l.stale)).trans updating_dropAll

/-! ## What becomes of an entry made -/

/-- Confirming changes nothing of an entry but its generation. -/
theorem property_confirm {β : Type} (p : Entry → β)
    (h : ∀ (x : Entry) (g : UInt64), p { x with generation := g } = p x) (d : Nat) :
    p ((l.confirm expiry e).entries.entry d) = p (l.entries.entry d) := by
  rw [confirm]
  split
  · exact property_stamp p h d
  · split
    · -- stamped by the demotion and once more afterwards, if at all
      rw [entries_park, property_stamp p h, property_expire p h]
    · rw [entries_enrol]

/-- An entry is made with its names and its key. -/
theorem entry_insert (l : Ledger) (expiry : Expiry) (label : String) (name encname : Bytes) :
    let made := (l.insert expiry label name encname).entries.entry l.entries.size
    made.name = name ∧ made.encname = encname ∧ made.key = some label := by
  have kept : ∀ {β : Type} (p : Entry → β),
      (∀ (x : Entry) (g : UInt64), p { x with generation := g } = p x) →
      p ((l.insert expiry label name encname).entries.entry l.entries.size) =
        p ((l.make label name encname).entries.entry l.entries.size) :=
    fun p h => property_confirm p h _
  refine ⟨?_, ?_, ?_⟩
  · rw [kept Entry.name fun _ _ => rfl, entry_make]
  · rw [kept Entry.encname fun _ _ => rfl, entry_make]
  · rw [kept Entry.key fun _ _ => rfl, entry_make]

end Ledger

end NameCache
