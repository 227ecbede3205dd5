/-
  Scans of an empty directory.

  A scan begins an update, enters the pairs that it sees, and ends the update.  `Ledger.Shows` says
  that a directory has some pairs as its entries, under consecutive numbers and in one generation,
  and nothing else; entering one more pair during an update keeps that (`Shows.insert`), so a scan
  leaves the directory with the pairs it saw (`Opened.rescanned`).

  A scan to the generation that the directory has already is none: its beginning changes nothing,
  and the first pair is entered outside an update (`Opened.rescanned_present`).
-/
import NameCache.Proofs.Directory.Insertions

namespace NameCache

/-! ## What is seen, and what is done with it -/

/-- A pair of names that a scan sees, and the label of its key. -/
structure Sighting where
  label : String
  name : Bytes
  encname : Bytes

namespace Sighting

/-- Both names can be cached. -/
def Fits (x : Sighting) : Prop := Entry.FitName x.name ∧ Entry.FitName x.encname

instance (x : Sighting) : Decidable x.Fits := inferInstanceAs (Decidable (_ ∧ _))

/-- Entering the pair. -/
def insertion (x : Sighting) : Action := .insert x.label x.name x.encname

/-- The pair as a live entry of a directory, without links. -/
def entry (x : Sighting) (dir generation : UInt64) : Entry :=
  { dir, name := x.name, encname := x.encname, key := some x.label, generation }

end Sighting

/-- The actions of a scan. -/
def Action.rescan (hold : Hold) (g : UInt64) (seen : List Sighting) : List Action :=
  .beginUpdate hold g :: (seen.map Sighting.insertion ++ [.endUpdate])

namespace Ledger

variable {l : Ledger} {g : UInt64} {base : Nat} {seen : List Sighting} {x : Sighting}
  {expiry : Expiry} {label : String} {name encname : Bytes}

/-- The directory has these pairs as its entries, the first under number `base`, the last of them at
    the front; and it has no others. -/
structure Shows (l : Ledger) (g : UInt64) (base : Nat) (seen : List Sighting) : Prop where
  generation : l.generation = g
  active : l.active = (List.range' base seen.length).reverse
  stale : l.stale = []
  size : l.entries.size = base + seen.length
  entries : (List.range' base seen.length).map l.entries.entry = seen.map fun x => x.entry l.id g

/-- A directory without entries shows no pairs. -/
theorem shows_nil (active : l.active = []) (stale : l.stale = []) :
    l.Shows l.generation l.entries.size [] :=
  ⟨rfl, active, stale, rfl, rfl⟩

/-- During an update a new entry is confirmed at once. -/
theorem insert_of_updating (scanning : l.updating = true) :
    l.insert expiry label name encname =
      { (l.make label name encname).renew l.entries.size with tally := l.tally.addInsert } := by
  have now : (l.make label name encname).updating = true := scanning
  rw [insert, confirm, if_pos now]
  rfl

/-- An update goes on while entries are made. -/
theorem updating_insert : (l.insert expiry label name encname).updating = l.updating :=
  updating_confirm (l := l.make label name encname)

/-- One more pair is entered. -/
theorem Shows.insert (shows : l.Shows g base seen) (scanning : l.updating = true) (x : Sighting) :
    (l.insert expiry x.label x.name x.encname).Shows g base (seen ++ [x]) := by
  have numbers : List.range' base (seen ++ [x]).length =
      List.range' base seen.length ++ [base + seen.length] := by
    rw [List.length_append, List.length_singleton, List.range'_1_concat]
  have older : ∀ e ∈ List.range' base seen.length, e < l.entries.size := by
    intro e he
    rw [shows.size]
    exact (List.mem_range'_1.mp he).2
  rw [insert_of_updating scanning]
  constructor
  case generation => exact shows.generation
  case active =>
    have new : l.entries.size ∉ l.active := by
      rw [shows.active, List.mem_reverse]
      exact fun he => Nat.lt_irrefl _ (older _ he)
    show l.entries.size :: l.active.erase l.entries.size = _
    rw [List.erase_of_not_mem new, numbers, List.reverse_append, shows.size, shows.active]
    rfl
  case stale =>
    show l.stale.erase l.entries.size = []
    rw [shows.stale]
    rfl
  case size =>
    show (Array.modify _ _ _).size = _
    rw [Entries.size_modify, Ledger.make, Array.size_push, shows.size, List.length_append]
    rfl
  case entries =>
    have push_lt : ∀ e ∈ List.range' base seen.length,
        ((l.make x.label x.name x.encname).renew l.entries.size).entries.entry e =
          l.entries.entry e := by
      intro e he
      have lt := older e he
      exact (Entries.entry_modify_ne (Nat.ne_of_lt lt)).trans (Entries.entry_push_lt lt)
    have pushed : ((l.make x.label x.name x.encname).renew l.entries.size).entries.entry
        l.entries.size = x.entry l.id g := by
      have lt : l.entries.size < (l.make x.label x.name x.encname).entries.size :=
        (fit_made l x.label x.name x.encname).bound
      refine (Entries.entry_modify_self lt).trans ?_
      rw [entry_make]
      exact congrArg (Sighting.entry x l.id) shows.generation
    rw [numbers, List.map_append, List.map_append, List.map_congr_left push_lt, shows.entries,
      ← shows.size]
    exact congrArg (_ ++ [·]) pushed

/-- An update that starts without entries changes only the generation. -/
theorem shows_beginUpdate (expiry : Expiry) (active : l.active = []) (stale : l.stale = [])
    (begins : l.Begins g) :
    (l.beginUpdate expiry g).updating = true ∧
      (l.beginUpdate expiry g).Shows g l.entries.size [] := by
  rw [Ledger.beginUpdate, if_pos begins, if_pos active]
  exact ⟨rfl, rfl, active, stale, rfl, rfl⟩

/-- Where nothing is stale, the end of an update destroys nothing. -/
theorem Shows.endUpdate (shows : l.Shows g base seen) : l.endUpdate.Shows g base seen := by
  rw [Ledger.endUpdate, shows.stale]
  split
  · exact ⟨shows.generation, shows.active, shows.stale, shows.size, shows.entries⟩
  · exact shows

/-- A new entry of no generation leaves something stale in an idle directory that has a generation
    or has stale entries already. -/
theorem stale_insert (sound : l.Sound) (idle : l.updating = false)
    (doubt : l.generation ≠ 0 ∨ l.stale ≠ []) :
    (l.insert expiry label name encname).stale ≠ [] := by
  have active : (l.insert expiry label name encname).active = _ := active_insert sound
  have held : (l.insert expiry label name encname).Holds l.entries.size :=
    (holds_insert sound.toTidy).mpr (.inr rfl)
  have other : ¬ (l.updating = true ∨ (l.generation = 0 ∧ l.stale = [])) := by
    rintro (scanning | ⟨zero, clean⟩)
    · exact Bool.false_ne_true (idle.symm.trans scanning)
    · exact doubt.elim (fun h => h zero) fun h => h clean
  rw [if_neg other] at active
  -- the entry is held, and nothing is active
  intro clean
  rcases held with h | h
  · exact List.not_mem_nil (active ▸ h)
  · exact List.not_mem_nil (clean ▸ h)

end Ledger

namespace Opened

variable {s : Opened} {others : Nat → Prop} {g : UInt64} {base : Nat}

/-! ## Actions one after the other -/

/-- The state after some actions, the first one first. -/
def acting (s : Opened) (actions : List Action) : Opened :=
  actions.foldl (fun s action => Deed.after ⟨s, action⟩) s

theorem acting_cons (s : Opened) (action : Action) (rest : List Action) :
    s.acting (action :: rest) = (Deed.after ⟨s, action⟩).acting rest := rfl

theorem acting_append (s : Opened) (first rest : List Action) :
    s.acting (first ++ rest) = (s.acting first).acting rest := List.foldl_append

/-- An accepted action turns the ledger into what the ledger says. -/
theorem ledger_after (sound : s.Sound others) (action : Action)
    (accepts : s.ledger.Accepts action) :
    ∃ outcome, (Deed.after ⟨s, action⟩).ledger = s.ledger.act .swap action outcome := by
  rcases Deed.cases ⟨s, action⟩ sound with ⟨refuses, -⟩ | ⟨-, outcome, -, -, ledger, -⟩
  · exact absurd accepts refuses
  · exact ⟨outcome, ledger⟩

theorem ledger_insertion (sound : s.Sound others) {x : Sighting} (fits : x.Fits) :
    (Deed.after ⟨s, x.insertion⟩).ledger = s.ledger.insert .swap x.label x.name x.encname := by
  obtain ⟨outcome, ledger⟩ := ledger_after sound x.insertion fits
  exact ledger

theorem ledger_begun (sound : s.Sound others) (hold : Hold) (g : UInt64) :
    (Deed.after ⟨s, .beginUpdate hold g⟩).ledger = s.ledger.beginUpdate .swap g := by
  obtain ⟨outcome, ledger⟩ := ledger_after sound (.beginUpdate hold g) trivial
  exact ledger

theorem ledger_ended (sound : s.Sound others) :
    (Deed.after ⟨s, .endUpdate⟩).ledger = s.ledger.endUpdate := by
  obtain ⟨outcome, ledger⟩ := ledger_after sound .endUpdate trivial
  exact ledger

/-! ## A scan -/

/-- While an update goes on, the pairs entered are added to what the directory shows. -/
theorem acting_insertions (sound : s.Sound others) {seen more : List Sighting}
    (fits : ∀ x ∈ more, x.Fits) (scanning : s.ledger.updating = true)
    (shows : s.ledger.Shows g base seen) :
    (s.acting (more.map Sighting.insertion)).Sound others ∧
      (s.acting (more.map Sighting.insertion)).ledger.Shows g base (seen ++ more) := by
  induction more generalizing s seen with
  | nil =>
    rw [List.append_nil]
    exact ⟨sound, shows⟩
  | cons x rest ih =>
    have ledger := ledger_insertion sound (fits x (List.mem_cons_self ..))
    have sound₁ := (Deed.leads ⟨s, x.insertion⟩ sound).1
    have shows₁ : (Deed.after ⟨s, x.insertion⟩).ledger.Shows g base (seen ++ [x]) := by
      rw [ledger]
      exact shows.insert scanning x
    have scanning₁ : (Deed.after ⟨s, x.insertion⟩).ledger.updating = true := by
      rw [ledger, Ledger.updating_insert]
      exact scanning
    have left := ih sound₁ (fun y hy => fits y (List.mem_cons_of_mem _ hy)) scanning₁ shows₁
    rw [List.append_assoc] at left
    exact left

/-- A scan of an empty directory to another generation leaves exactly what it saw; and so it does to
    the generation that the directory has, if it saw nothing. -/
theorem rescanned (sound : s.Sound others) (active : s.dir.activeEntries = [])
    (stale : s.dir.staleEntries = []) (hold : Hold) {seen : List Sighting}
    (fits : ∀ x ∈ seen, x.Fits) (some_generation : g ≠ 0)
    (anew : g ≠ s.dir.generation ∨ seen = []) :
    (s.acting (Action.rescan hold g seen)).dir.updating = false ∧
      (s.acting (Action.rescan hold g seen)).ledger.Shows g s.entries.size seen := by
  have size : s.ledger.entries.size = s.entries.size := Deed.size_ledger s
  have begun := ledger_begun sound hold g
  have sound₁ := (Deed.leads ⟨s, .beginUpdate hold g⟩ sound).1
  rw [Action.rescan, acting_cons, acting_append]
  -- what is shown before the update ends is shown after it
  have ends : ∀ s₁ : Opened, s₁.Sound others → s₁.ledger.Shows g s.entries.size seen →
      (s₁.acting [.endUpdate]).dir.updating = false ∧
        (s₁.acting [.endUpdate]).ledger.Shows g s.entries.size seen := by
    intro s₁ sound₁ shows
    have ledger := ledger_ended sound₁
    refine ⟨?_, ?_⟩
    · show (Deed.after ⟨s₁, .endUpdate⟩).ledger.updating = false
      rw [ledger, Ledger.updating_endUpdate]
    · show (Deed.after ⟨s₁, .endUpdate⟩).ledger.Shows g s.entries.size seen
      rw [ledger]
      exact shows.endUpdate
  by_cases begins : s.ledger.Begins g
  · have starts := Ledger.shows_beginUpdate .swap active stale begins
    rw [← begun] at starts
    obtain ⟨scanning, shows⟩ := starts
    rw [size] at shows
    obtain ⟨sound₂, shows₂⟩ := acting_insertions sound₁ fits scanning shows
    exact ends _ sound₂ shows₂
  · -- the directory has this generation, so there was nothing to see
    have present : s.dir.generation = g := Decidable.not_not.mp fun h => begins ⟨some_generation, h⟩
    obtain rfl := anew.resolve_left fun h => h present.symm
    have shows := Ledger.shows_nil (l := s.ledger) active stale
    rw [show s.ledger.generation = g from present, size] at shows
    rw [Ledger.beginUpdate, if_neg begins] at begun
    refine ends _ sound₁ ?_
    show (Deed.after ⟨s, .beginUpdate hold g⟩).ledger.Shows g s.entries.size []
    rw [begun]
    exact shows

/-- Pairs entered outside an update into a directory in doubt leave something stale. -/
theorem acting_strays (sound : s.Sound others) {seen : List Sighting} (fits : ∀ x ∈ seen, x.Fits)
    (idle : s.ledger.updating = false)
    (doubt : s.ledger.stale ≠ [] ∨ s.ledger.generation ≠ 0 ∧ seen ≠ []) :
    (s.acting (seen.map Sighting.insertion)).Sound others ∧
      (s.acting (seen.map Sighting.insertion)).ledger.updating = false ∧
      (s.acting (seen.map Sighting.insertion)).ledger.stale ≠ [] := by
  induction seen generalizing s with
  | nil => exact ⟨sound, idle, doubt.resolve_right fun h => h.2 rfl⟩
  | cons x rest ih =>
    have ledger := ledger_insertion sound (fits x (List.mem_cons_self ..))
    refine ih (Deed.leads ⟨s, x.insertion⟩ sound).1
      (fun y hy => fits y (List.mem_cons_of_mem _ hy)) ?_ (.inl ?_)
    · rw [ledger, Ledger.updating_insert]
      exact idle
    · rw [ledger]
      exact Ledger.stale_insert sound.ledger idle (doubt.symm.imp_left And.left)

/-- What a scan to the present generation sees ends up stale. -/
theorem rescanned_present (sound : s.Sound others) (idle : s.dir.updating = false) (hold : Hold)
    {seen : List Sighting} (fits : ∀ x ∈ seen, x.Fits) (some_generation : s.dir.generation ≠ 0)
    (some_seen : seen ≠ []) :
    (s.acting (Action.rescan hold s.dir.generation seen)).dir.updating = false ∧
      (s.acting (Action.rescan hold s.dir.generation seen)).dir.staleEntries ≠ [] := by
  have begun := ledger_begun sound hold s.dir.generation
  rw [Ledger.beginUpdate, if_neg fun h => h.2 rfl] at begun
  have sound₁ := (Deed.leads ⟨s, .beginUpdate hold s.dir.generation⟩ sound).1
  obtain ⟨sound₂, idle₂, stale₂⟩ := acting_strays sound₁ fits (by rw [begun]; exact idle)
    (.inr ⟨by rw [begun]; exact some_generation, some_seen⟩)
  have ended := ledger_ended sound₂
  rw [Ledger.endUpdate, if_neg (by rw [idle₂]; exact Bool.false_ne_true)] at ended
  rw [Action.rescan, acting_cons, acting_append]
  refine ⟨?_, ?_⟩
  · exact (congrArg Ledger.updating ended).trans idle₂
  · intro clean
    exact stale₂ ((congrArg Ledger.stale ended).symm.trans clean)

end Opened

end NameCache
