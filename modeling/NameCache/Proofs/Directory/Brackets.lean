/-
  Which deeds begin, finish and disturb an update.

  An update is a bracket: it is begun with a generation, and finished or given up.  `begun`, `ends`,
  `aborts` and `strays` tell from a deed and the state it found what it was.  A directory has a
  generation only as long as nothing has disturbed the last bracket (`Course.generation`), whatever
  else was done and however often a bracket was begun within another.
-/
import NameCache.Proofs.Directory.Insertions

namespace NameCache

namespace Deed

/-- The generation of the update that it began: neither zero nor the one the directory had. -/
def begun (deed : Deed) : Option UInt64 :=
  match deed.action with
  | .beginUpdate _ g => if g ≠ 0 ∧ deed.before.dir.generation ≠ g then some g else none
  | _ => none

/-- Whether it finished an update. -/
def ends (deed : Deed) : Bool := deed.action = .endUpdate ∧ deed.before.dir.updating = true

/-- Whether it gave up an update. -/
def aborts (deed : Deed) : Bool := deed.action = .abortUpdate ∧ deed.before.dir.updating = true

/-- Whether it inserted an entry while no update was under way. -/
def strays (deed : Deed) : Bool :=
  deed.inserted.isSome = true ∧ deed.before.dir.updating = false

variable (deed : Deed) {others : Nat → Prop}

/-- Nothing but an insertion inserts outside an update. -/
theorem strays_eq_false (sound : deed.before.Sound others)
    (other : ∀ label name encname, deed.action ≠ .insert label name encname) :
    deed.strays = false := by
  rw [strays, inserted_eq_none deed sound other]
  rfl

/-- A deed that was refused neither begins nor gives up an update, and inserts nothing. -/
theorem refused_calm (refuses : ¬ deed.before.ledger.Accepts deed.action)
    (refused : deed.outcome = none) :
    deed.begun = none ∧ deed.aborts = false ∧ deed.strays = false := by
  have strays : deed.strays = false := by
    rw [strays, inserted, refused]
    rfl
  obtain ⟨before, action⟩ := deed
  -- only insertions, confirmations and lookups are ever refused
  cases action with
  | beginUpdate hold g => exact absurd trivial refuses
  | abortUpdate => exact absurd trivial refuses
  | _ => exact ⟨rfl, rfl, strays⟩

/-- What a deed does to the generation: it begins an update, leaves the generation as it is, or
    drops it. -/
theorem turns (sound : deed.before.Sound others) :
    (∃ g, deed.begun = some g ∧ deed.after.dir.generation = g ∧
      deed.after.dir.updating = true) ∨
    (deed.begun = none ∧ deed.aborts = false ∧ deed.strays = false ∧
      deed.after.dir.generation = deed.before.dir.generation ∧
      (deed.ends = false → deed.after.dir.updating = deed.before.dir.updating)) ∨
    deed.after.dir.generation = 0 := by
  rcases deed.cases sound with ⟨refuses, refused, same⟩ | ⟨-, outcome, -, answers, ledger, -⟩
  · obtain ⟨begun, aborts, strays⟩ := deed.refused_calm refuses refused
    exact .inr (.inl ⟨begun, aborts, strays, by rw [same], fun _ => by rw [same]⟩)
  · obtain ⟨before, action⟩ := deed
    have generation : (after ⟨before, action⟩).dir.generation =
        (before.ledger.act .swap action outcome).generation := congrArg Ledger.generation ledger
    have updating : (after ⟨before, action⟩).dir.updating =
        (before.ledger.act .swap action outcome).updating := congrArg Ledger.updating ledger
    rw [generation, updating]
    cases action with
    | insert label name encname =>
      -- a new entry is of no generation, so outside an update it drops the directory's
      by_cases scanning : before.dir.updating = true
      · refine .inr (.inl ⟨rfl, rfl, ?_, ?_, fun _ => Ledger.updating_confirm⟩)
        · simp [strays, scanning]
        · exact Ledger.generation_insert.trans (if_pos scanning)
      · exact .inr (.inr (Ledger.generation_insert.trans (if_neg scanning)))
    | update e =>
      obtain rfl : outcome = .done := answers
      rcases before.ledger.generation_confirm .swap e with kept | ⟨-, dropped⟩
      · exact .inr (.inl ⟨rfl, rfl, strays_eq_false _ sound (by simp), kept,
          fun _ => Ledger.updating_confirm⟩)
      · exact .inr (.inr dropped)
    | lookupName name =>
      obtain ⟨found, rfl⟩ := answers
      exact .inr (.inl ⟨rfl, rfl, strays_eq_false _ sound (by simp), rfl, fun _ => rfl⟩)
    | lookupEncname encname =>
      obtain ⟨found, rfl⟩ := answers
      exact .inr (.inl ⟨rfl, rfl, strays_eq_false _ sound (by simp), rfl, fun _ => rfl⟩)
    | beginUpdate hold g =>
      obtain rfl : outcome = _ := answers
      by_cases begins : g ≠ 0 ∧ before.dir.generation ≠ g
      · exact .inl ⟨g, if_pos begins, Ledger.generation_beginUpdate.trans (if_pos begins),
          Ledger.updating_beginUpdate.trans (if_pos begins)⟩
      · exact .inr (.inl ⟨if_neg begins, rfl, strays_eq_false _ sound (by simp),
          Ledger.generation_beginUpdate.trans (if_neg begins),
          fun _ => Ledger.updating_beginUpdate.trans (if_neg begins)⟩)
    | endUpdate =>
      obtain rfl : outcome = _ := answers
      refine .inr (.inl ⟨rfl, rfl, strays_eq_false _ sound (by simp),
        Ledger.generation_endUpdate, fun idle => ?_⟩)
      have off : before.dir.updating = false := by
        simpa [ends] using idle
      exact Ledger.updating_endUpdate.trans off.symm
    | abortUpdate =>
      obtain rfl : outcome = .done := answers
      by_cases scanning : before.dir.updating = true
      · exact .inr (.inr (Ledger.generation_abortUpdate.trans (if_pos scanning)))
      · refine .inr (.inl ⟨rfl, ?_, strays_eq_false _ sound (by simp),
          Ledger.generation_abortUpdate.trans (if_neg scanning), fun _ => ?_⟩)
        · simp [aborts, scanning]
        · exact Ledger.updating_abortUpdate.trans (Bool.eq_false_iff.mpr scanning).symm
    | purge =>
      obtain rfl : outcome = _ := answers
      exact .inr (.inl ⟨rfl, rfl, strays_eq_false _ sound (by simp), Ledger.generation_purge,
        fun _ => Ledger.updating_purge⟩)

end Deed

namespace Opened

variable {deeds : List Deed} {s : Opened}

/-- A directory that has a generation has it from the last update begun, nothing having disturbed
    it since; and if the update is not under way any more, it was finished. -/
theorem Course.generation (course : Course deeds s) (some_generation : s.dir.generation ≠ 0) :
    ∃ since begin earlier, deeds = since ++ begin :: earlier ∧
      begin.begun = some s.dir.generation ∧
      (∀ deed ∈ since, deed.begun = none ∧ deed.aborts = false ∧ deed.strays = false) ∧
      (s.dir.updating = false → ∃ deed ∈ since, deed.ends = true) := by
  induction course with
  | fresh _ generation => exact absurd generation some_generation
  | @act deeds s₁ action before ih =>
    obtain ⟨others, sound⟩ := before.sound
    rcases Deed.turns ⟨s₁, action⟩ sound with
      ⟨g, begun, generation, updating⟩ | ⟨begun, aborts, strays, generation, updating⟩ | dropped
    · -- this deed began the bracket
      refine ⟨[], ⟨s₁, action⟩, deeds, rfl, ?_, List.forall_mem_nil _, fun idle => ?_⟩
      · rw [generation]
        exact begun
      · exact absurd (updating.symm.trans idle) (by decide)
    · rw [generation] at some_generation
      obtain ⟨since, begin, earlier, rfl, from_begin, calm, finished⟩ := ih some_generation
      refine ⟨⟨s₁, action⟩ :: since, begin, earlier, rfl, ?_, ?_, fun idle => ?_⟩
      · rw [generation]
        exact from_begin
      · exact List.forall_mem_cons.mpr ⟨⟨begun, aborts, strays⟩, calm⟩
      · -- either this deed finished the update or an earlier one did
        cases ends : Deed.ends ⟨s₁, action⟩ with
        | true => exact ⟨_, List.mem_cons_self .., ends⟩
        | false =>
          obtain ⟨deed, was, finishes⟩ := finished ((updating ends).symm.trans idle)
          exact ⟨deed, List.mem_cons_of_mem _ was, finishes⟩
    · exact absurd dropped some_generation
  | rest _ rests _ ih =>
    rw [rests.dir] at some_generation ⊢
    exact ih some_generation

end Opened

end NameCache
