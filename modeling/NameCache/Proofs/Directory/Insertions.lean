/-
  Entries and the insertions they come from.

  A directory holds exactly the live ones among the entries inserted through it
  (`Course.holds_iff`), and later insertions have greater numbers.  `Keeps` is what becomes of one
  of them: its names stay, its key stays or is given back for good, and it is held or destroyed.
-/
import NameCache.Proofs.Directory.Effects

namespace NameCache

namespace Deed

/-- The entry it inserted, if it inserted one. -/
def inserted (deed : Deed) : Option Nat :=
  match deed.outcome with
  | some (.made e) => some e
  | _ => none

/-- The entries that were inserted, the latest first. -/
def insertions (deeds : List Deed) : List Nat := deeds.filterMap inserted

variable (deed : Deed) {others : Nat → Prop} {e : Nat}

theorem mem_insertions_cons {deed : Deed} {deeds : List Deed} (he : e ∈ insertions deeds) :
    e ∈ insertions (deed :: deeds) := by
  rw [insertions, List.filterMap_cons]
  split
  · exact he
  · exact List.mem_cons_of_mem _ he

theorem size_ledger (s : Opened) : s.ledger.entries.size = s.entries.size := Array.size_map

/-- Only an insertion brings an entry, and that is the next one. -/
theorem gains (sound : deed.before.Sound others) :
    (deed.inserted = some deed.before.entries.size ∧
      deed.after.entries.size = deed.before.entries.size + 1 ∧
      ∀ e, deed.after.dir.Holds e ↔ deed.before.dir.Holds e ∨ e = deed.before.entries.size) ∨
    (deed.inserted = none ∧ deed.after.entries.size = deed.before.entries.size ∧
      ∀ e, deed.after.dir.Holds e → deed.before.dir.Holds e) := by
  rcases deed.cases sound with ⟨-, refused, same⟩ | ⟨accepts, outcome, answer, answers, ledger, -⟩
  · refine .inr ⟨?_, by rw [same], fun e => by rw [same]; exact id⟩
    rw [inserted, refused]
  · have size := size_ledger deed.after
    rw [ledger] at size
    have holds : ∀ e, deed.after.dir.Holds e ↔
        (deed.before.ledger.act .swap deed.action outcome).Holds e := by
      intro e
      rw [← ledger]
      exact Iff.rfl
    rw [inserted, answer, ← size, ← size_ledger]
    rcases Ledger.act_gains sound.ledger.toTidy accepts answers with
      ⟨-, rfl, grown, members⟩ | ⟨other, kept, members⟩
    · exact .inl ⟨rfl, grown, fun e => (holds e).trans (members e)⟩
    · refine .inr ⟨?_, kept, fun e h => members e ((holds e).mp h)⟩
      cases outcome with
      | made e => exact absurd rfl (other e)
      | _ => rfl

/-- What inserts is an insertion. -/
theorem insert_of_inserted (sound : deed.before.Sound others) (h : deed.inserted = some e) :
    ∃ label name encname, deed.action = .insert label name encname := by
  rcases deed.cases sound with ⟨-, refused, -⟩ | ⟨accepts, outcome, answer, answers, -⟩
  · rw [inserted, refused] at h
    exact absurd h (by rintro ⟨⟩)
  · rcases Ledger.act_gains sound.ledger.toTidy accepts answers with ⟨action, -⟩ | ⟨unmade, -⟩
    · exact action
    · rw [inserted, answer] at h
      cases outcome with
      | made e => exact absurd rfl (unmade e)
      | _ => exact absurd h (by rintro ⟨⟩)

/-- Nothing but an insertion inserts. -/
theorem inserted_eq_none (sound : deed.before.Sound others)
    (other : ∀ label name encname, deed.action ≠ .insert label name encname) :
    deed.inserted = none := by
  refine Option.eq_none_iff_forall_ne_some.mpr fun e h => ?_
  obtain ⟨label, name, encname, action⟩ := deed.insert_of_inserted sound h
  exact other label name encname action

/-- Only the end of an update and a purge let go of anything. -/
theorem holds_after (sound : deed.before.Sound others) (held : deed.before.dir.Holds e)
    (ends : deed.action = .endUpdate → ¬ (deed.before.dir.updating = true ∧
      e ∈ deed.before.dir.staleEntries))
    (purges : deed.action ≠ .purge) : deed.after.dir.Holds e := by
  rcases deed.cases sound with ⟨-, -, same⟩ | ⟨-, outcome, -, -, ledger, -⟩
  · rw [same]
    exact held
  · have holds : deed.after.ledger.Holds e := by
      rw [ledger]
      exact Ledger.holds_act sound.ledger.toTidy held ends purges
    exact holds

/-- The end of an update lets go of the stale entries. -/
theorem holds_ended (sound : deed.before.Sound others) (ends : deed.action = .endUpdate) :
    deed.after.dir.Holds e ↔ deed.before.dir.Holds e ∧
      ¬ (deed.before.dir.updating = true ∧ e ∈ deed.before.dir.staleEntries) := by
  rcases deed.cases sound with ⟨refuses, -⟩ | ⟨-, outcome, -, -, ledger, -⟩
  · rw [ends] at refuses
    exact absurd trivial refuses
  · have holds : deed.after.dir.Holds e ↔ deed.before.ledger.endUpdate.Holds e := by
      show deed.after.ledger.Holds e ↔ _
      rw [ledger, ends]
      exact Iff.rfl
    exact holds.trans (Ledger.holds_endUpdate sound.ledger.toTidy)

/-- A purge lets go of everything. -/
theorem not_holds_purged (sound : deed.before.Sound others) (purges : deed.action = .purge) :
    ¬ deed.after.dir.Holds e := by
  intro held
  have holds : deed.after.ledger.Holds e := held
  rcases deed.cases sound with ⟨refuses, -⟩ | ⟨-, outcome, -, -, ledger, -⟩
  · rw [purges] at refuses
    exact refuses trivial
  · rw [ledger, purges] at holds
    exact Ledger.not_holds_purge sound.ledger.toTidy holds

end Deed

namespace Opened

variable {s s' : Opened} {others : Nat → Prop} {e : Nat} {label : String} {name encname : Bytes}
  {deed : Deed} {deeds : List Deed}

/-- What becomes of an entry that was inserted with a key and two names. -/
structure Keeps (s : Opened) (e : Nat) (label : String) (name encname : Bytes) : Prop where
  lt : e < s.entries.size
  name : (s.entries.entry e).name = name
  encname : (s.entries.entry e).encname = encname
  key : (s.entries.entry e).key = some label ∨ (s.entries.entry e).key = none
  fate : s.dir.Holds e ∨ (s.entries.entry e).Destroyed

theorem Keeps.leads (keeps : s.Keeps e label name encname) (sound : s.Sound others)
    (leads : s.Leads s') : s'.Keeps e label name encname := by
  obtain ⟨-, same_name, same_encname⟩ := leads.names e keeps.lt
  have lt := Nat.lt_of_lt_of_le keeps.lt leads.grows
  refine ⟨lt, same_name.trans keeps.name, same_encname.trans keeps.encname, ?_, ?_⟩
  · rcases leads.key e keeps.lt with same | gone
    · rw [same]
      exact keeps.key
    · exact .inr gone
  · rcases keeps.fate with held | gone
    · exact leads.fate e lt (.inl held)
    · rw [leads.destroyed sound keeps.lt gone]
      exact .inr gone

theorem Keeps.rests (keeps : s.Keeps e label name encname) (rests : s.Rests s') :
    s'.Keeps e label name encname := by
  have same : s'.entries.entry e = s.entries.entry e := by
    rcases keeps.fate with held | gone
    · exact rests.held e held
    · exact rests.gone e keeps.lt gone
  refine ⟨Nat.lt_of_lt_of_le keeps.lt rests.grows, ?_, ?_, ?_, ?_⟩
  · rw [same, keeps.name]
  · rw [same, keeps.encname]
  · rw [same]
    exact keeps.key
  · rw [same, rests.dir]
    exact keeps.fate

/-- An entry just inserted has its names and its key. -/
theorem keeps_inserted (sound : deed.before.Sound others)
    (action : deed.action = .insert label name encname) (inserted : deed.inserted = some e) :
    deed.after.Keeps e label name encname := by
  rcases deed.gains sound with ⟨next, size, holds⟩ | ⟨none, -⟩
  · obtain rfl := Option.some.inj (next.symm.trans inserted)
    have here : deed.after.dir.Holds deed.before.entries.size := (holds _).mpr (.inr rfl)
    rcases deed.cases sound with ⟨-, refused, -⟩ | ⟨-, outcome, -, -, ledger, -⟩
    · rw [Deed.inserted, refused] at inserted
      exact absurd inserted (by rintro ⟨⟩)
    · have bare : deed.after.ledger.entries.entry deed.before.entries.size =
          (deed.after.entries.entry deed.before.entries.size).bare := Entries.entry_map_bare
      have made := deed.before.ledger.entry_insert .swap label name encname
      have insert : deed.after.ledger = deed.before.ledger.insert .swap label name encname := by
        rw [ledger, action]
        rfl
      rw [← insert, Deed.size_ledger, bare] at made
      obtain ⟨same_name, same_encname, key⟩ := made
      exact ⟨by rw [size]; exact Nat.lt_succ_self _, same_name, same_encname, .inl key, .inl here⟩
  · exact absurd (none.symm.trans inserted) (by rintro ⟨⟩)

namespace Course

/-- What becomes of an entry inserted in the course of a directory. -/
theorem keeps (course : Course deeds s) (was : deed ∈ deeds)
    (action : deed.action = .insert label name encname) (inserted : deed.inserted = some e) :
    s.Keeps e label name encname := by
  induction course with
  | fresh => exact absurd was List.not_mem_nil
  | @act deeds s₁ act before ih =>
    obtain ⟨others, sound⟩ := before.sound
    rcases List.mem_cons.mp was with rfl | old
    · -- this is the deed that inserted it; any later one leads on from there
      exact keeps_inserted sound action inserted
    · exact (ih old).leads sound (Deed.leads ⟨s₁, act⟩ sound).2
  | rest _ rests _ ih => exact (ih was).rests rests

/-- An entry comes from a deed that inserted it under two names. -/
theorem insertion (course : Course deeds s) (he : e ∈ Deed.insertions deeds) :
    ∃ deed ∈ deeds, deed.inserted = some e ∧
      ∃ label name encname, deed.action = .insert label name encname := by
  obtain ⟨deed, was, inserted⟩ := List.mem_filterMap.mp he
  refine ⟨deed, was, inserted, ?_⟩
  induction course with
  | fresh => exact absurd was List.not_mem_nil
  | @act deeds s₁ act before ih =>
    rcases List.mem_cons.mp was with rfl | old
    · obtain ⟨others, sound⟩ := before.sound
      exact Deed.insert_of_inserted _ sound inserted
    · exact ih (List.mem_filterMap.mpr ⟨deed, old, inserted⟩) old
  | rest _ _ _ ih => exact ih he was

/-- What was inserted is held or destroyed. -/
theorem fate (course : Course deeds s) (he : e ∈ Deed.insertions deeds) :
    e < s.entries.size ∧ (s.dir.Holds e ∨ (s.entries.entry e).Destroyed) := by
  obtain ⟨deed, was, inserted, label, name, encname, action⟩ := course.insertion he
  have keeps := course.keeps was action inserted
  exact ⟨keeps.lt, keeps.fate⟩

/-- What is held was inserted. -/
theorem inserted (course : Course deeds s) (held : s.dir.Holds e) :
    e ∈ Deed.insertions deeds := by
  induction course with
  | fresh _ _ _ active stale =>
    rcases held with h | h
    · exact absurd (active ▸ h) List.not_mem_nil
    · exact absurd (stale ▸ h) List.not_mem_nil
  | @act deeds s₁ act before ih =>
    obtain ⟨others, sound⟩ := before.sound
    rcases Deed.gains ⟨s₁, act⟩ sound with ⟨next, -, holds⟩ | ⟨none, -, holds⟩
    · rw [Deed.insertions, List.filterMap_cons_some next, List.mem_cons]
      exact ((holds e).mp held).symm.imp_right ih
    · rw [Deed.insertions, List.filterMap_cons_none none]
      exact ih (holds e held)
  | rest _ rests _ ih =>
    rw [rests.dir] at held
    exact ih held

/-- A directory holds exactly the live ones among the entries inserted through it. -/
theorem holds_iff (course : Course deeds s) :
    s.dir.Holds e ↔ e ∈ Deed.insertions deeds ∧ (s.entries.entry e).live = true := by
  obtain ⟨others, sound⟩ := course.sound
  constructor
  · exact fun held => ⟨course.inserted held, sound.holds_live held⟩
  · rintro ⟨he, live⟩
    refine (course.fate he).2.resolve_right fun gone => ?_
    rw [gone.not_live] at live
    exact Bool.false_ne_true live

/-- Later insertions have greater numbers. -/
theorem insertions_sorted (course : Course deeds s) :
    (Deed.insertions deeds).Pairwise (· > ·) := by
  induction course with
  | fresh => exact .nil
  | @act deeds s₁ act before ih =>
    obtain ⟨others, sound⟩ := before.sound
    rcases Deed.gains ⟨s₁, act⟩ sound with ⟨next, -⟩ | ⟨none, -⟩
    · rw [Deed.insertions, List.filterMap_cons_some next]
      exact .cons (fun e he => (before.fate he).1) ih
    · rw [Deed.insertions, List.filterMap_cons_none none]
      exact ih
  | rest _ _ _ ih => exact ih

end Course

end Opened

/-- Deeds without a break insert new entries, later ones with greater numbers. -/
theorem Chain.insertions_new {s s' : Opened} {deeds : List Deed} {others : Nat → Prop}
    (chain : Chain s deeds s') (sound : s.Sound others) :
    (Deed.insertions deeds).Pairwise (· > ·) ∧
      ∀ e ∈ Deed.insertions deeds, s.entries.size ≤ e ∧ e < s'.entries.size := by
  induction chain with
  | nil => exact ⟨.nil, fun e he => absurd he List.not_mem_nil⟩
  | @cons deeds s₁ action chain ih =>
    obtain ⟨sorted, between⟩ := ih
    obtain ⟨sound₁, leads⟩ := chain.leads sound
    rcases Deed.gains ⟨s₁, action⟩ sound₁ with ⟨next, grown, -⟩ | ⟨none, same, -⟩
    · rw [Deed.insertions, List.filterMap_cons_some next]
      refine ⟨.cons (fun e he => (between e he).2) sorted, List.forall_mem_cons.mpr ⟨?_, ?_⟩⟩
      · rw [grown]
        exact ⟨leads.grows, Nat.lt_succ_self _⟩
      · intro e he
        rw [grown]
        exact ⟨(between e he).1, Nat.lt_succ_of_lt (between e he).2⟩
    · rw [Deed.insertions, List.filterMap_cons_none none, same]
      exact ⟨sorted, between⟩

end NameCache
