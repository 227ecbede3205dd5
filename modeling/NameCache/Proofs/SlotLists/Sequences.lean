/-
  Slot lists do what sequences do.

  `Sequences` is what is left of slot lists when the slots and the links are taken away: some
  sequences of numbered values, the numbers that were given back, the last one first, and the most
  values that there ever were at once.  A new value goes to the front of its sequence, under the
  number given back last or, if there is none, under the next number that was never used.

  1. **Edits.**  Putting a value at the front, removing a number and moving a number, on slot lists
     (`Edit.run`) and on sequences (`Sequences.next`).
  2. **One edit** (`Models.run`).  Slot lists that model sequences model the edited ones after the
     same edit, which gives the same outcome and never stops on a fault.  Hence they follow the
     machine of sequences, however many edits there are.
  3. **What can be seen** of the slots (`Models.shows`), and how long a number keeps its value
     (`Models.value?_after`).

  The crux is the number of slots.  A slot is added only when none is vacant, so at that moment the
  values fill all slots; hence there are as many slots as there were values at the fullest moment.
-/
import NameCache.Proofs.Machine
import NameCache.Proofs.SlotLists

namespace NameCache

variable {α : Type}

/-! ## Edits -/

/-- A change of slot lists. -/
inductive SlotLists.Edit (α : Type) where
  /-- Put a value at the front of a list. -/
  | push (list : Nat) (value : α)
  /-- Remove the node with a number. -/
  | remove (i : Nat)
  /-- Move the node with a number to the front of a list. -/
  | move (i list : Nat)
  deriving DecidableEq, Repr

/-- What a change gives back. -/
inductive SlotLists.Outcome (α : Type) where
  | pushed (i : Nat)
  | removed (value : Option α)
  | moved
  deriving DecidableEq, Repr

namespace SlotLists.Edit

/-- Make one change. -/
def run : Edit α → Step (SlotLists α) (Outcome α)
  | .push list value => Outcome.pushed <$> pushFront list value
  | .remove i => Outcome.removed <$> SlotLists.remove i
  | .move i list => (fun _ => Outcome.moved) <$> moveToFront i list

end SlotLists.Edit

open SlotLists

/-- Sequences of numbered values. -/
structure Sequences (α : Type) where
  /-- How many sequences there are. -/
  size : Nat
  /-- The numbers and values of each, front first. -/
  lists : Nat → List (Nat × α)
  /-- The numbers that were given back and are free, the last one first. -/
  freed : List Nat
  /-- The most values that there have been at once. -/
  peak : Nat

namespace Sequences

/-- `n` empty sequences. -/
def none (n : Nat) : Sequences α := ⟨n, fun _ => [], [], 0⟩

/-- All numbers and values. -/
def all (q : Sequences α) : List (Nat × α) := (List.range q.size).flatMap q.lists

/-- The value under a number. -/
def value? (q : Sequences α) (i : Nat) : Option α := (q.all.find? fun x => x.1 = i).map (·.2)

/-- How many values there are. -/
def total (q : Sequences α) : Nat := sumTo (fun l => (q.lists l).length) q.size

/-- The number that a new value gets. -/
def fresh (q : Sequences α) : Nat := q.freed.head?.getD q.peak

/-- What a change gives back. -/
def outcome (q : Sequences α) : Edit α → Outcome α
  | .push _ _ => .pushed q.fresh
  | .remove i => .removed (q.value? i)
  | .move _ _ => .moved

/-- The sequences after a change, before their values are counted. -/
def edited (q : Sequences α) : Edit α → Sequences α
  | .push l v => { q with lists := pushed q.lists l (q.fresh, v), freed := q.freed.tail }
  | .remove i =>
    match q.value? i with
    | some _ => { q with lists := dropped q.lists i, freed := i :: q.freed }
    | .none => q
  | .move i l =>
    match q.value? i with
    | some v => { q with lists := pushed (dropped q.lists i) l (i, v) }
    | .none => q

/-- The sequences after a change. -/
def next (q : Sequences α) (edit : Edit α) : Sequences α :=
  { q.edited edit with peak := max q.peak (q.edited edit).total }

/-- The lists that a change names exist, and so does what it moves.  Any number may be removed. -/
def Admits (q : Sequences α) : Edit α → Prop
  | .push l _ => l < q.size
  | .remove _ => True
  | .move i l => (q.value? i).isSome ∧ l < q.size

instance (q : Sequences α) : (edit : Edit α) → Decidable (q.Admits edit)
  | .push l _ => inferInstanceAs (Decidable (l < q.size))
  | .remove _ => inferInstanceAs (Decidable True)
  | .move i l => inferInstanceAs (Decidable ((q.value? i).isSome ∧ l < q.size))

/-- The sequences under changes. -/
def machine : Machine (Sequences α) (Edit α) (Outcome α) := ⟨Admits, outcome, next⟩

instance (q : Sequences α) (edit : Edit α) : Decidable (machine.Admits q edit) :=
  inferInstanceAs (Decidable (q.Admits edit))

end Sequences

namespace SlotLists

variable {s t : SlotLists α} {q : Sequences α} {edit : Edit α} {edits : List (Edit α)}
  {i l : Nat} {v : α}

/-! ## What can be seen of sequences in slots -/

/-- Everything that slot lists show agrees with the sequences. -/
structure Shows (s : SlotLists α) (q : Sequences α) : Prop where
  heads : s.heads.size = q.size
  chain : ∀ l, l < q.size → s.chain l = q.lists l
  /-- Following the links of a list ends by itself, with any fuel that is enough for its values. -/
  walk : ∀ l fuel, l < q.size → (q.lists l).length ≤ fuel →
    s.chainFrom fuel (s.heads[l]?.bind (·.first)) = q.lists l
  values : ∀ l, l < q.size → s.values l = (q.lists l).map (·.2)
  front : ∀ l, l < q.size → SlotLists.front l s = .ok ((q.lists l).head?.map (·.1)) s
  isEmpty : ∀ l, l < q.size → SlotLists.isEmpty l s = .ok (q.lists l).isEmpty s
  count : ∀ l, l < q.size → s.count l = (q.lists l).length
  value : ∀ i, s.value? i = q.value? i
  /-- A number is under way once at most. -/
  once : (q.all.map (·.1)).Nodup
  /-- A new value gets a number that is not in use. -/
  unused : s.value? q.fresh = .none
  /-- A number that is not in use is removed without any change. -/
  idle : ∀ i, q.value? i = .none → SlotLists.remove i s = .ok .none s
  total : s.total = sumTo s.count q.size
  vacant : s.vacant = q.freed
  vacant_nodup : s.vacant.Nodup
  mem_vacant : ∀ i, i ∈ s.vacant ↔ s.slots[i]? = some .none
  slots : s.slots.size = q.peak

/-- The links spell out the sequences, and the slots agree with the numbers. -/
structure Models (s : SlotLists α) (q : Sequences α) : Prop where
  sound : s.Sound
  heads : s.heads.size = q.size
  lists : s.chain = q.lists
  freed : s.vacant = q.freed
  slots : s.slots.size = q.peak

theorem models_none (n : Nat) : (empty n : SlotLists α).Models (.none n) where
  sound := sound_empty n
  heads := Array.size_replicate
  lists := rfl
  freed := rfl
  slots := rfl

/-- A slot is vacant if it is there and has no node. -/
theorem slot_eq_none_iff : s.slots[i]? = some .none ↔ i < s.slots.size ∧ s.node? i = .none := by
  rw [node?]
  constructor
  · intro vacant
    obtain ⟨hi, -⟩ := Array.getElem?_eq_some_iff.mp vacant
    exact ⟨hi, by rw [vacant]; rfl⟩
  · rintro ⟨hi, nobody⟩
    rw [Array.getElem?_eq_getElem hi] at nobody ⊢
    exact congrArg some nobody

namespace Models

theorem mem_all (models : s.Models q) : (i, v) ∈ q.all ↔ ∃ l, (i, v) ∈ s.chain l := by
  rw [Sequences.all, List.mem_flatMap, ← models.lists]
  constructor
  · rintro ⟨l, -, there⟩
    exact ⟨l, there⟩
  · rintro ⟨l, there⟩
    have hl := models.sound.lt_of_mem there
    rw [models.heads] at hl
    exact ⟨l, List.mem_range.mpr hl, there⟩

theorem value?_eq (models : s.Models q) (i : Nat) : s.value? i = q.value? i := by
  apply Option.ext
  intro v
  rw [models.sound.value?_eq_some_iff, Sequences.value?, Option.map_eq_some_iff]
  constructor
  · intro there
    -- the first one found with that number is the only one
    have found : (q.all.find? fun x => x.1 = i).isSome := by
      rw [List.find?_isSome]
      exact ⟨(i, v), models.mem_all.mpr there, decide_eq_true rfl⟩
    obtain ⟨⟨j, w⟩, hx⟩ := Option.isSome_iff_exists.mp found
    have named := List.find?_some hx
    obtain rfl : j = i := of_decide_eq_true named
    obtain ⟨k, hk⟩ := models.mem_all.mp (List.mem_of_find?_eq_some hx)
    obtain ⟨l, hl⟩ := there
    refine ⟨(j, w), hx, ?_⟩
    exact (models.sound.unique hl hk).2
  · rintro ⟨⟨j, w⟩, hx, rfl⟩
    have named := List.find?_some hx
    obtain rfl : j = i := of_decide_eq_true named
    exact models.mem_all.mp (List.mem_of_find?_eq_some hx)

theorem fresh_eq (models : s.Models q) : q.fresh = s.vacant.head?.getD s.slots.size := by
  rw [Sequences.fresh, models.freed, models.slots]

/-! ## One edit -/

/-- Slot lists that hold the edited sequences model them once the values are counted, if the slots
    have grown no more than they had to. -/
theorem of_edited (models : s.Models q) {q' : Sequences α} (edited : q.edited edit = q')
    (size : q'.size = q.size) (sound : t.Sound) (heads : t.heads.size = s.heads.size)
    (lists : t.chain = q'.lists) (freed : t.vacant = q'.freed)
    (slots : t.slots.size = s.slots.size ∨ t.slots.size = s.slots.size + 1 ∧ t.vacant = []) :
    t.Models (q.next edit) := by
  subst edited
  refine ⟨sound, heads.trans (models.heads.trans size.symm), lists, freed, ?_⟩
  have total : t.total = (q.edited edit).total := by
    rw [sound.total_eq, lists, heads, models.heads, ← size]
    rfl
  have most : t.total = t.slots.size - t.vacant.length := rfl
  have before := models.slots
  show t.slots.size = max q.peak (q.edited edit).total
  rcases slots with same | ⟨grown, none_vacant⟩
  · omega
  · rw [none_vacant, List.length_nil] at most
    omega

/-- Putting a value at the front. -/
theorem push (models : s.Models q) (hl : l < q.size) (v : α) :
    ∃ t, pushFront l v s = .ok q.fresh t ∧ t.Models (q.next (.push l v)) := by
  obtain ⟨i, t, run, sound, heads, slot, -, vacant, slots, chain⟩ :=
    models.sound.pushFront_spec (models.heads ▸ hl) v
  obtain rfl : i = q.fresh := slot.trans models.fresh_eq.symm
  have lists : t.chain = pushed q.lists l (q.fresh, v) := by rw [chain, models.lists]
  have freed : t.vacant = q.freed.tail := by rw [vacant, models.freed]
  refine ⟨t, run, models.of_edited rfl rfl sound heads lists freed ?_⟩
  -- the slot is a new one exactly if none was vacant
  cases hv : s.vacant with
  | nil =>
    rw [hv] at slot vacant
    refine .inr ⟨?_, vacant⟩
    rw [slots, slot]
    show max s.slots.size (s.slots.size + 1) = _
    omega
  | cons j rest =>
    have hj : j < s.slots.size := ((models.sound.mem_vacant j).mp (by rw [hv]; simp)).1
    rw [hv] at slot
    refine .inl ?_
    rw [slots, slot]
    show max s.slots.size (j + 1) = _
    omega

/-- Removing a number, be it in use or not. -/
theorem remove (models : s.Models q) (i : Nat) :
    ∃ t, SlotLists.remove i s = .ok (q.value? i) t ∧ t.Models (q.next (.remove i)) := by
  cases found : q.value? i with
  | none =>
    have nobody : s.value? i = .none := (models.value?_eq i).trans found
    have edited : q.edited (.remove i) = q := by
      rw [Sequences.edited]
      simp only [found]
    have run : SlotLists.remove i s = .ok .none s := by
      rw [SlotLists.remove, Step.get_bind, nobody]
      rfl
    exact ⟨s, run,
      models.of_edited edited rfl models.sound rfl models.lists models.freed (.inl rfl)⟩
  | some v =>
    have there : s.value? i = some v := (models.value?_eq i).trans found
    obtain ⟨l, hl⟩ := models.sound.value?_eq_some_iff.mp there
    obtain ⟨t, run, sound, heads, vacant, slots, chain⟩ := models.sound.remove_spec hl
    have edited : q.edited (.remove i) =
        { q with lists := dropped q.lists i, freed := i :: q.freed } := by
      rw [Sequences.edited]
      simp only [found]
    have lists : t.chain = dropped q.lists i := by rw [chain, models.lists]
    have freed : t.vacant = i :: q.freed := by rw [vacant, models.freed]
    exact ⟨t, run, models.of_edited edited rfl sound heads lists freed (.inl slots)⟩

/-- Moving a number that is in use. -/
theorem move (models : s.Models q) (found : q.value? i = some v) (hl : l < q.size) :
    ∃ t, moveToFront i l s = .ok () t ∧ t.Models (q.next (.move i l)) := by
  have there : s.value? i = some v := (models.value?_eq i).trans found
  obtain ⟨k, hk⟩ := models.sound.value?_eq_some_iff.mp there
  obtain ⟨t, run, sound, heads, vacant, slots, chain⟩ :=
    models.sound.moveToFront_spec hk (models.heads ▸ hl)
  have edited : q.edited (.move i l) =
      { q with lists := pushed (dropped q.lists i) l (i, v) } := by
    rw [Sequences.edited]
    simp only [found]
  have lists : t.chain = pushed (dropped q.lists i) l (i, v) := by rw [chain, models.lists]
  have freed : t.vacant = q.freed := vacant.trans models.freed
  exact ⟨t, run, models.of_edited edited rfl sound heads lists freed (.inl slots)⟩

/-- A change gives what it gives on sequences, and leaves a model of the changed ones. -/
theorem run (models : s.Models q) (fit : q.Admits edit) :
    ∃ t, edit.run s = .ok (q.outcome edit) t ∧ t.Models (q.next edit) := by
  cases edit with
  | push l v =>
    obtain ⟨t, run, models'⟩ := models.push fit v
    exact ⟨t, Step.map_of_ok run, models'⟩
  | remove i =>
    obtain ⟨t, run, models'⟩ := models.remove i
    exact ⟨t, Step.map_of_ok run, models'⟩
  | move i l =>
    obtain ⟨known, hl⟩ := fit
    obtain ⟨v, found⟩ := Option.isSome_iff_exists.mp known
    obtain ⟨t, run, models'⟩ := models.move found hl
    exact ⟨t, Step.map_of_ok run, models'⟩

theorem follows : Machine.Follows Edit.run Sequences.machine (Models (α := α)) :=
  fun _ _ _ models fit => models.run fit

/-- A number that is not removed keeps its value. -/
theorem value?_edit (models : s.Models q) (models' : t.Models (q.next edit))
    (other : edit ≠ .remove i) (there : s.value? i = some v) : t.value? i = some v := by
  have found : q.value? i = some v := (models.value?_eq i).symm.trans there
  obtain ⟨k, hk⟩ := models.sound.value?_eq_some_iff.mp there
  rw [models.lists] at hk
  have lists : t.chain = (q.edited edit).lists := models'.lists
  rw [models'.sound.value?_eq_some_iff, lists]
  cases edit with
  | push l w =>
    refine ⟨k, ?_⟩
    show (i, v) ∈ if k = l then (q.fresh, w) :: q.lists k else q.lists k
    split
    · exact List.mem_cons_of_mem _ hk
    · exact hk
  | remove j =>
    have ne : i ≠ j := by
      rintro rfl
      exact other rfl
    rw [Sequences.edited]
    cases q.value? j with
    | none => exact ⟨k, hk⟩
    | some w => exact ⟨k, List.mem_filter.mpr ⟨hk, decide_eq_true ne⟩⟩
  | move j l =>
    rw [Sequences.edited]
    by_cases same : j = i
    · subst same
      rw [found]
      refine ⟨l, ?_⟩
      show (j, v) ∈ if l = l then (j, v) :: _ else _
      rw [if_pos rfl]
      exact List.mem_cons_self ..
    · cases q.value? j with
      | none => exact ⟨k, hk⟩
      | some w =>
        have left : (i, v) ∈ dropped q.lists j k :=
          List.mem_filter.mpr ⟨hk, decide_eq_true fun heq => same heq.symm⟩
        refine ⟨k, ?_⟩
        show (i, v) ∈ if k = l then (j, w) :: dropped q.lists j k else dropped q.lists j k
        split
        · exact List.mem_cons_of_mem _ left
        · exact left

/-! ## Any number of edits -/

/-- A number that none of the changes removes keeps its value. -/
theorem value?_after (models : s.Models q) (fit : Sequences.machine.AdmitsAll q edits)
    (others : .remove i ∉ edits) (there : s.value? i = some v) :
    (Sequences.machine.after q edits).value? i = some v := by
  induction edits generalizing s q with
  | nil => exact (models.value?_eq i).symm.trans there
  | cons edit rest ih =>
    obtain ⟨first, later⟩ := not_or.mp (mt List.mem_cons.mpr others)
    obtain ⟨t, -, models'⟩ := models.run fit.1
    exact ih models' fit.2 later (models.value?_edit models' (fun heq => first heq.symm) there)

/-- What is modelled shows. -/
theorem shows (models : s.Models q) : s.Shows q := by
  have sound := models.sound
  have inside : ∀ l, l < q.size → l < s.heads.size := fun l hl => by rw [models.heads]; exact hl
  have numbers : q.all.map (·.1) =
      (List.range s.heads.size).flatMap fun l => (s.chain l).map (·.1) := by
    rw [Sequences.all, List.map_flatMap, models.lists, models.heads]
  constructor
  case heads => exact models.heads
  case chain => exact fun l _ => congrFun models.lists l
  case walk =>
    intro l fuel hl enough
    rw [← models.lists] at enough ⊢
    rw [sound.head l (inside l hl)]
    exact sound.chainFrom_eq (s.chain l) fuel [] rfl enough
  case values => exact fun l _ => by rw [SlotLists.values, models.lists]
  case front => exact fun l hl => models.lists ▸ sound.front_run (inside l hl)
  case isEmpty => exact fun l hl => models.lists ▸ sound.isEmpty_run (inside l hl)
  case count => exact fun l _ => models.lists ▸ sound.count_eq l
  case value => exact models.value?_eq
  case once =>
    rw [numbers]
    exact (List.nodup_append.mp (sound.slots_perm.nodup_iff.mp List.nodup_range)).2.1
  case unused =>
    rw [models.fresh_eq, value?, Option.map_eq_none_iff]
    cases hv : s.vacant with
    | nil =>
      show s.node? s.slots.size = .none
      rw [node?, Array.getElem?_eq_none (Nat.le_refl _)]
      rfl
    | cons j rest => exact ((sound.mem_vacant j).mp (by rw [hv]; simp)).2
  case idle =>
    intro i nobody
    rw [SlotLists.remove, Step.get_bind, models.value?_eq, nobody]
    rfl
  case total =>
    rw [sound.total_eq, models.heads]
    exact sumTo_congr fun l _ => (sound.count_eq l).symm
  case vacant => exact models.freed
  case vacant_nodup => exact sound.vacant_nodup
  case mem_vacant => exact fun i => (sound.mem_vacant i).trans slot_eq_none_iff.symm
  case slots => exact models.slots

end Models

end SlotLists

namespace SlotLists

/-- Slot lists do what sequences do: whatever the number of lists, and whatever the changes, as
    long as they name lists that exist and move numbers that are in use.  No change stops on a
    fault, each gives back what it gives back on sequences, and afterwards the slots show the
    sequences and nothing else.  A number keeps its value until it is removed. -/
theorem edits_refine_sequences (n : Nat) (edits : List (Edit α))
    (fit : Sequences.machine.AdmitsAll (.none n) edits) :
    ∃ s, edits.mapM Edit.run (empty n) = .ok (Sequences.machine.outcomes (.none n) edits) s ∧
      s.Shows (Sequences.machine.after (.none n) edits) ∧
      ∀ earlier later, edits = earlier ++ later →
        ∃ s', earlier.mapM Edit.run (empty n) =
            .ok (Sequences.machine.outcomes (.none n) earlier) s' ∧
          ∀ i v, s'.value? i = some v → .remove i ∉ later → s.value? i = some v := by
  obtain ⟨s, run, models⟩ := Models.follows.runs (models_none n) fit
  refine ⟨s, run, models.shows, ?_⟩
  rintro earlier later rfl
  obtain ⟨before, rest⟩ := Machine.admitsAll_append.mp fit
  obtain ⟨s', run', models'⟩ := Models.follows.runs (models_none n) before
  refine ⟨s', run', fun i v there others => ?_⟩
  rw [models.value?_eq, Machine.after_append]
  exact models'.value?_after rest others there

/-- Removing from the middle and the only one, moving to the same list and to another, and removing
    a number that was never given. -/
theorem edits_refine_sequences_two_lists :
    ∃ s : SlotLists Char,
      List.mapM Edit.run [.push 0 'a', .push 0 'b', .push 0 'c', .push 1 'd', .move 0 0, .remove 2,
        .remove 9, .move 3 0, .remove 3, .push 1 'e'] (empty 2) =
          .ok [.pushed 0, .pushed 1, .pushed 2, .pushed 3, .moved, .removed (some 'c'),
            .removed none, .moved, .removed (some 'd'), .pushed 3] s ∧
      s.chain 0 = [(0, 'a'), (1, 'b')] ∧ s.chain 1 = [(3, 'e')] ∧ s.vacant = [2] ∧
      s.slots.size = 4 := by
  obtain ⟨s, run, shows, -⟩ := edits_refine_sequences 2 [.push 0 'a', .push 0 'b', .push 0 'c',
    .push 1 'd', .move 0 0, .remove 2, .remove 9, .move 3 0, .remove 3, .push 1 'e'] (by decide)
  exact ⟨s, run, shows.chain 0 (by decide), shows.chain 1 (by decide), shows.vacant, shows.slots⟩

end SlotLists

end NameCache
