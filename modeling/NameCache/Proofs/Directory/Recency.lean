/-
  The active list is a record of confirmations.

  A deed may confirm an entry, demote all of them, or neither.  The code keeps no history: it moves
  one node, or flips a slot, or walks a list.  Yet the active list is always the same function of
  the history, `Deed.confirmedSince`: the entries confirmed since the last demotion, the latest
  first, each once, as far as they are still live (`Course.recency`).

  The crux is that confirming an entry anew commutes with striking out repetitions: an entry put in
  front and taken out of the rest is what `eraseDups` makes of an entry put in front.
-/
import NameCache.Proofs.Directory.Brackets

namespace NameCache

/-- Striking out repetitions commutes with dropping entries. -/
theorem eraseDups_filter (p : Nat → Bool) : ∀ l : List Nat,
    (l.filter p).eraseDups = l.eraseDups.filter p
  | [] => rfl
  | a :: rest => by
    have ih := eraseDups_filter p (rest.filter fun b => !b == a)
    rw [List.eraseDups_cons, List.filter_cons, List.filter_cons, ← ih, List.filter_filter]
    by_cases ha : p a = true
    · rw [if_pos ha, if_pos ha, List.eraseDups_cons, List.filter_filter]
      simp only [Bool.and_comm]
    · rw [if_neg ha, if_neg ha]
      refine congrArg List.eraseDups (List.filter_congr fun b _ => ?_)
      by_cases hb : b = a
      · rw [hb, Bool.eq_false_iff.mpr ha, Bool.false_and]
      · simp [hb]
  termination_by l => l.length
  decreasing_by exact Nat.lt_succ_of_le (List.length_filter_le _ _)

/-- An entry in front of a list without repetitions is taken out of the rest. -/
theorem eraseDups_cons_filter (a : Nat) (l : List Nat) (p : Nat → Bool) (ha : p a = true) :
    (a :: l).eraseDups.filter p = a :: (l.eraseDups.filter p).filter fun b => !b == a := by
  rw [List.eraseDups_cons, List.filter_cons, if_pos ha, eraseDups_filter, List.filter_filter,
    List.filter_filter]
  simp only [Bool.and_comm]

namespace Deed

/-- The entry it confirmed: one inserted or updated during an update, or inserted outside one into
    a directory without a generation and without stale entries. -/
def confirmed (deed : Deed) : Option Nat :=
  match deed.action with
  | .insert _ _ _ =>
    if deed.before.dir.updating = true ∨
        (deed.before.dir.generation = 0 ∧ deed.before.dir.staleEntries = []) then deed.inserted
    else none
  | .update e =>
    if deed.before.dir.updating = true ∧ deed.outcome = some .done then some e else none
  | _ => none

/-- Whether it demoted every active entry: it began an update, gave one up, or inserted an entry
    outside an update into a directory with a generation or with stale entries. -/
def demotes (deed : Deed) : Bool :=
  deed.begun.isSome || deed.aborts ||
    (deed.strays && (deed.before.dir.generation ≠ 0 || !deed.before.dir.staleEntries.isEmpty))

/-- The entries confirmed since the last demotion, the latest first, with repetitions. -/
def confirmedSince (deeds : List Deed) : List Nat :=
  (deeds.takeWhile fun deed => !deed.demotes).filterMap confirmed

variable (deed : Deed) {deeds : List Deed} {others : Nat → Prop} {e : Nat}

theorem confirmedSince_cons : confirmedSince (deed :: deeds) =
    if deed.demotes = true then [] else deed.confirmed.toList ++ confirmedSince deeds := by
  rw [confirmedSince, List.takeWhile_cons]
  cases deed.demotes with
  | true => rfl
  | false =>
    show List.filterMap confirmed (deed :: _) = _
    rw [List.filterMap_cons]
    cases deed.confirmed <;> rfl

theorem demotes_eq_false (begun : deed.begun = none) (aborts : deed.aborts = false)
    (strays : deed.strays = false) : deed.demotes = false := by
  rw [demotes, begun, aborts, strays]
  rfl

/-- A deed that was refused confirms nothing. -/
theorem confirmed_refused (refused : deed.outcome = none) : deed.confirmed = none := by
  have made : deed.inserted = none := by rw [inserted, refused]
  rw [confirmed]
  split
  · rw [made, ite_self]
  · exact if_neg fun h => absurd (refused.symm.trans h.2) (by rintro ⟨⟩)
  · rfl

/-- An insertion demotes the active list, or makes its entry the first of it. -/
theorem active_inserted {before : Opened} (sound : before.Sound others) (label : String)
    (name encname : Bytes)
    (answer : outcome ⟨before, .insert label name encname⟩ =
      some (.made before.ledger.entries.size))
    (active : (after ⟨before, .insert label name encname⟩).dir.activeEntries =
      (before.ledger.insert .swap label name encname).active) :
    (demotes ⟨before, .insert label name encname⟩ = true ∧
      (after ⟨before, .insert label name encname⟩).dir.activeEntries = []) ∨
    (demotes ⟨before, .insert label name encname⟩ = false ∧ ∃ e,
      confirmed ⟨before, .insert label name encname⟩ = some e ∧
      (after ⟨before, .insert label name encname⟩).dir.activeEntries =
        e :: before.dir.activeEntries.erase e) := by
  have made : inserted ⟨before, .insert label name encname⟩ =
      some before.ledger.entries.size := by rw [inserted, answer]
  rw [active, Ledger.active_insert sound.ledger]
  by_cases agree : before.dir.updating = true ∨
      (before.dir.generation = 0 ∧ before.dir.staleEntries = [])
  · have new : before.ledger.entries.size ∉ before.dir.activeEntries := fun h =>
      absurd (sound.ledger.fit _ (.inl h)).bound (Nat.lt_irrefl _)
    refine .inr ⟨?_, _, (if_pos agree).trans made, ?_⟩
    · rcases agree with scanning | ⟨generation, clean⟩
      · simp [demotes, begun, aborts, strays, scanning]
      · simp [demotes, begun, aborts, generation, clean]
    · rw [List.erase_of_not_mem new]
      exact if_pos agree
  · have idle : before.dir.updating = false :=
      Bool.eq_false_iff.mpr fun h => agree (.inl h)
    have doubt : before.dir.generation ≠ 0 ∨ before.dir.staleEntries ≠ [] := by
      by_cases generation : before.dir.generation = 0
      · exact .inr fun clean => agree (.inr ⟨generation, clean⟩)
      · exact .inl generation
    refine .inl ⟨?_, if_neg agree⟩
    simpa [demotes, begun, aborts, strays, made, idle] using doubt

/-- What a deed does to the active list: it demotes it, purges it, confirms one entry, or leaves it
    as it is. -/
theorem active_after (sound : deed.before.Sound others) :
    (deed.demotes = true ∧ deed.after.dir.activeEntries = []) ∨
    (deed.demotes = false ∧ deed.confirmed = none ∧ deed.action = .purge ∧
      deed.after.dir.activeEntries = []) ∨
    (deed.demotes = false ∧ deed.action ≠ .purge ∧ ∃ e, deed.confirmed = some e ∧
      deed.after.dir.activeEntries = e :: deed.before.dir.activeEntries.erase e) ∨
    (deed.demotes = false ∧ deed.action ≠ .purge ∧ deed.confirmed = none ∧
      deed.after.dir.activeEntries = deed.before.dir.activeEntries) := by
  rcases deed.cases sound with
    ⟨refuses, refused, same⟩ | ⟨accepts, outcome, answer, answers, ledger, -⟩
  · obtain ⟨begun, aborts, strays⟩ := deed.refused_calm refuses refused
    refine .inr (.inr (.inr ⟨deed.demotes_eq_false begun aborts strays, ?_,
      deed.confirmed_refused refused, by rw [same]⟩))
    intro purges
    rw [purges] at refuses
    exact refuses trivial
  · obtain ⟨before, action⟩ := deed
    have tidy := sound.ledger.toTidy
    have active : (after ⟨before, action⟩).dir.activeEntries =
        (before.ledger.act .swap action outcome).active := congrArg Ledger.active ledger
    cases action with
    | insert label name encname =>
      obtain rfl : outcome = .made before.ledger.entries.size := answers
      rcases active_inserted sound label name encname answer active with demoted | ⟨keeps, rest⟩
      · exact .inl demoted
      · exact .inr (.inr (.inl ⟨keeps, by simp, rest⟩))
    | update e =>
      obtain rfl : outcome = .done := answers
      have keeps : demotes ⟨before, .update e⟩ = false :=
        demotes_eq_false _ rfl rfl (strays_eq_false _ sound (by simp))
      by_cases scanning : before.dir.updating = true
      · refine .inr (.inr (.inl ⟨keeps, by simp, e, if_pos ⟨scanning, answer⟩, active.trans ?_⟩))
        have now : before.ledger.updating = true := scanning
        show (before.ledger.confirm .swap e).active = _
        rw [Ledger.confirm, if_pos now]
        rfl
      · refine .inr (.inr (.inr ⟨keeps, by simp, if_neg fun h => scanning h.1, active.trans ?_⟩))
        exact Ledger.active_confirm_of_idle sound.ledger (Bool.eq_false_iff.mpr scanning) accepts
    | lookupName name =>
      obtain ⟨found, rfl⟩ := answers
      exact .inr (.inr (.inr ⟨demotes_eq_false _ rfl rfl (strays_eq_false _ sound (by simp)),
        by simp, rfl, active⟩))
    | lookupEncname encname =>
      obtain ⟨found, rfl⟩ := answers
      exact .inr (.inr (.inr ⟨demotes_eq_false _ rfl rfl (strays_eq_false _ sound (by simp)),
        by simp, rfl, active⟩))
    | beginUpdate hold g =>
      obtain rfl : outcome = _ := answers
      replace active := active.trans Ledger.active_beginUpdate
      by_cases begins : g ≠ 0 ∧ before.dir.generation ≠ g
      · refine .inl ⟨?_, active.trans (if_pos begins)⟩
        simp [demotes, begun, begins]
      · exact .inr (.inr (.inr ⟨demotes_eq_false _ (if_neg begins) rfl
          (strays_eq_false _ sound (by simp)), by simp, rfl, active.trans (if_neg begins)⟩))
    | endUpdate =>
      obtain rfl : outcome = _ := answers
      exact .inr (.inr (.inr ⟨demotes_eq_false _ rfl rfl (strays_eq_false _ sound (by simp)),
        by simp, rfl, active.trans (Ledger.active_endUpdate tidy)⟩))
    | abortUpdate =>
      obtain rfl : outcome = .done := answers
      replace active := active.trans Ledger.active_abortUpdate
      by_cases scanning : before.dir.updating = true
      · refine .inl ⟨?_, active.trans (if_pos scanning)⟩
        simp [demotes, aborts, scanning]
      · refine .inr (.inr (.inr ⟨demotes_eq_false _ rfl ?_ (strays_eq_false _ sound (by simp)),
          by simp, rfl, active.trans (if_neg scanning)⟩))
        simp [aborts, scanning]
    | purge =>
      obtain rfl : outcome = _ := answers
      exact .inr (.inl ⟨demotes_eq_false _ rfl rfl (strays_eq_false _ sound (by simp)), rfl, rfl,
        active.trans (Ledger.active_purge tidy)⟩)

end Deed

namespace Opened

variable {deeds : List Deed} {deed : Deed} {s s' : Opened} {e : Nat}

/-- A key once given back is not given out again. -/
theorem Leads.live (leads : s.Leads s') (he : e < s.entries.size)
    (live : (s'.entries.entry e).live = true) : (s.entries.entry e).live = true := by
  rcases leads.key e he with same | gone
  · rwa [Entry.live, ← same]
  · rw [Entry.live, gone] at live
    exact absurd live Bool.false_ne_true

namespace Course

/-- What a deed confirms was inserted. -/
theorem confirmed_inserted {action : Action} (before : Course deeds s)
    (confirmed : Deed.confirmed ⟨s, action⟩ = some e) :
    e ∈ Deed.insertions (⟨s, action⟩ :: deeds) := by
  obtain ⟨others, sound⟩ := before.sound
  cases action with
  | insert label name encname =>
    replace confirmed : (if s.dir.updating = true ∨
        (s.dir.generation = 0 ∧ s.dir.staleEntries = []) then
          Deed.inserted ⟨s, .insert label name encname⟩ else none) = some e := confirmed
    split at confirmed
    · rw [Deed.insertions, List.filterMap_cons_some confirmed]
      exact List.mem_cons_self ..
    · exact absurd confirmed (by rintro ⟨⟩)
  | update e' =>
    replace confirmed : (if s.dir.updating = true ∧
        Deed.outcome ⟨s, .update e'⟩ = some .done then some e' else none) = some e := confirmed
    split at confirmed
    case isTrue done =>
      obtain rfl := Option.some.inj confirmed
      refine Deed.mem_insertions_cons ?_
      rcases Deed.cases ⟨s, .update e'⟩ sound with ⟨-, refused, -⟩ | ⟨held, -⟩
      · exact absurd (refused.symm.trans done.2) (by rintro ⟨⟩)
      · exact before.inserted held
    case isFalse => exact absurd confirmed (by rintro ⟨⟩)
  | _ => exact absurd confirmed (by rintro ⟨⟩)

theorem confirmedSince_subset (course : Course deeds s) (he : e ∈ Deed.confirmedSince deeds) :
    e ∈ Deed.insertions deeds := by
  induction course with
  | fresh => exact absurd he List.not_mem_nil
  | @act deeds s₁ action before ih =>
    rw [Deed.confirmedSince_cons] at he
    split at he
    · exact absurd he List.not_mem_nil
    · rcases List.mem_append.mp he with new | old
      · exact before.confirmed_inserted (Option.mem_toList.mp new)
      · exact Deed.mem_insertions_cons (ih old)
  | rest _ _ _ ih => exact ih he

/-- The active entries are the live ones among those confirmed since the last demotion, the latest
    confirmation first. -/
theorem recency (course : Course deeds s) :
    s.dir.activeEntries =
      (Deed.confirmedSince deeds).eraseDups.filter fun e => (s.entries.entry e).live := by
  induction course with
  | fresh _ _ _ active _ => exact active
  | @act deeds s₁ action before ih =>
    obtain ⟨others, sound⟩ := before.sound
    have leads := (Deed.leads ⟨s₁, action⟩ sound).2
    have sound' := (Deed.leads ⟨s₁, action⟩ sound).1
    -- of the entries confirmed before, the same ones are live, unless all were purged
    have same : action ≠ .purge → ((Deed.confirmedSince deeds).eraseDups.filter fun e =>
        ((Deed.after ⟨s₁, action⟩).entries.entry e).live) = s₁.dir.activeEntries := by
      intro spares
      rw [ih]
      refine List.filter_congr fun e he => ?_
      have old := before.confirmedSince_subset (List.mem_eraseDups.mp he)
      obtain ⟨lt, -⟩ := before.fate old
      refine Bool.eq_iff_iff.mpr ⟨leads.live lt, fun live => ?_⟩
      have active : e ∈ s₁.dir.activeEntries := by
        rw [ih]
        exact List.mem_filter.mpr ⟨he, live⟩
      exact sound'.holds_live (Deed.holds_after ⟨s₁, action⟩ sound (.inl active)
        (fun _ h => sound.ledger.disjoint e active h.2) spares)
    rw [Deed.confirmedSince_cons]
    rcases Deed.active_after ⟨s₁, action⟩ sound with ⟨demotes, active⟩ |
      ⟨keeps, none, purges, active⟩ | ⟨keeps, spares, e, confirmed, active⟩ |
      ⟨keeps, spares, none, active⟩
    · rw [if_pos demotes]
      exact active
    · -- a purge demotes nothing, but of what was confirmed nothing lives on
      rw [if_neg (by simp [keeps]), none, active]
      refine (List.filter_eq_nil_iff.mpr fun e he live => ?_).symm
      have old := before.confirmedSince_subset (List.mem_eraseDups.mp he)
      rcases ((Course.act action before).fate (Deed.mem_insertions_cons old)).2 with held | gone
      · exact Deed.not_holds_purged ⟨s₁, action⟩ sound purges held
      · rw [gone.not_live] at live
        exact Bool.false_ne_true live
    · have live : ((Deed.after ⟨s₁, action⟩).entries.entry e).live = true :=
        sound'.holds_live (.inl (by rw [active]; exact List.mem_cons_self ..))
      rw [if_neg (by simp [keeps]), confirmed, active, Option.toList_some, List.singleton_append,
        eraseDups_cons_filter e _ _ live, same spares]
      exact congrArg (e :: ·) (sound.ledger.active_nodup.erase_eq_filter e)
    · rw [if_neg (by simp [keeps]), none, active]
      exact (same spares).symm
  | rest before rests _ ih =>
    rw [rests.dir, ih]
    refine List.filter_congr fun e he => ?_
    obtain ⟨lt, fate⟩ := before.fate (before.confirmedSince_subset (List.mem_eraseDups.mp he))
    rcases fate with held | gone
    · rw [rests.held e held]
    · rw [rests.gone e lt gone]

end Course

end Opened

end NameCache
