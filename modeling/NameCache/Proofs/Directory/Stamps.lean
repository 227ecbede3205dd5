/-
  Where the generation that an entry carries comes from.

  Demoting by exchanging the lists leaves the entries the generations they had, demoting by a walk
  drops them, and parking an entry drops its own.  So a stale entry may carry anything it was ever
  confirmed in, and whether it looks like an active one depends on the whole past of the directory.
  Yet nothing is made up: a generation that an entry carries is zero, or the directory had it in an
  update in which the entry was confirmed (`Course.stamped`).

  The crux is `Ledger.stampOf_act`, that one action gives out no other generation than the present
  one, and to no other entry than the one it confirms.
-/
import NameCache.Proofs.Directory.Recency

namespace NameCache

namespace Entries

variable {es : List Nat} {entries : Entries} {e d : Nat}

/-- A number that no entry has carries zero anyway. -/
theorem generation_stamp_zero :
    (Entries.entry (entries.modify e fun entry => { entry with generation := 0 }) d).generation =
      if d = e then 0 else (entries.entry d).generation := by
  by_cases same : d = e
  · rw [if_pos same, same]
    by_cases known : e < entries.size
    · exact congrArg Entry.generation (entry_modify_self known)
    · have beyond : (entries.modify e fun entry => { entry with generation := 0 }).size ≤ e := by
        rw [size_modify]
        exact Nat.not_lt.mp known
      rw [entry_of_le beyond]
      rfl
  · rw [if_neg same]
    exact congrArg Entry.generation (entry_modify_ne same)

theorem generation_stampAll_zero : ((stampAll 0 es entries).entry d).generation =
    if d ∈ es then 0 else (entries.entry d).generation := by
  induction es generalizing entries with
  | nil => exact (if_neg List.not_mem_nil).symm
  | cons e rest ih =>
    rw [stampAll_cons, ih, generation_stamp_zero]
    by_cases later : d ∈ rest
    · rw [if_pos later, if_pos (List.mem_cons_of_mem _ later)]
    · rw [if_neg later]
      by_cases same : d = e
      · rw [if_pos same, if_pos (same ▸ List.mem_cons_self ..)]
      · rw [if_neg same, if_neg fun h => (List.mem_cons.mp h).elim same later]

end Entries

namespace Ledger

variable {l : Ledger} {e d : Nat} {es : List Nat} {g : UInt64} {expiry : Expiry} {action : Action}
  {outcome : Outcome} {label : String} {name encname : Bytes}

/-- The generation that an entry carries. -/
def stampOf (l : Ledger) (e : Nat) : UInt64 := (l.entries.entry e).generation

/-! ## What each operation makes of it -/

theorem stampOf_of_le (beyond : l.entries.size ≤ e) : l.stampOf e = 0 := by
  rw [stampOf, Entries.entry_of_le beyond]
  rfl

theorem stampOf_stamp_self (known : e < l.entries.size) : (l.stamp e g).stampOf e = g :=
  congrArg Entry.generation (Entries.entry_modify_self known)

theorem stampOf_stamp_ne (other : d ≠ e) : (l.stamp e g).stampOf d = l.stampOf d :=
  congrArg Entry.generation (Entries.entry_modify_ne other)

theorem stampOf_stamp_zero : (l.stamp e 0).stampOf d = if d = e then 0 else l.stampOf d :=
  Entries.generation_stamp_zero

/-- Demoting leaves an entry its generation, unless a walk meets it. -/
theorem stampOf_expire : (l.expire expiry).stampOf d =
    if d ∈ l.active ∧ ¬ (expiry = .swap ∧ l.stale = []) then 0 else l.stampOf d := by
  rw [expire]
  by_cases exchanged : expiry = .swap ∧ l.stale = []
  · rw [if_pos exchanged, if_neg fun h => h.2 exchanged]
    rfl
  · rw [if_neg exchanged]
    show (Entries.entry (l.entries.stampAll 0 l.active) d).generation = _
    rw [Entries.generation_stampAll_zero]
    by_cases active : d ∈ l.active
    · rw [if_pos active, if_pos ⟨active, exchanged⟩]
    · rw [if_neg active, if_neg fun h => active h.1]
      rfl

theorem stampOf_expire_or (l : Ledger) (expiry : Expiry) (d : Nat) :
    (l.expire expiry).stampOf d = l.stampOf d ∨ (l.expire expiry).stampOf d = 0 := by
  rw [stampOf_expire]
  split
  · exact .inr rfl
  · exact .inl rfl

@[simp] theorem stampOf_park : (l.park e).stampOf d = l.stampOf d := by
  rw [stampOf, entries_park, stampOf]

@[simp] theorem stampOf_enrol : (l.enrol e).stampOf d = l.stampOf d := by
  rw [stampOf, entries_enrol, stampOf]

@[simp] theorem stampOf_counted : (l.counted outcome).stampOf d = l.stampOf d := by
  rw [stampOf, entries_counted, stampOf]

theorem stampOf_drop : (l.drop e).stampOf d = l.stampOf d :=
  Entries.property_modify (f := fun entry => { entry with key := none }) Entry.generation
    (fun _ => rfl) d

@[simp] theorem stampOf_dropAll : (l.dropAll es).stampOf d = l.stampOf d := by
  induction es generalizing l with
  | nil => rfl
  | cons e rest ih => exact (ih (l := l.drop e)).trans stampOf_drop

theorem stampOf_beginUpdate (l : Ledger) (expiry : Expiry) (g : UInt64) (d : Nat) :
    (l.beginUpdate expiry g).stampOf d = l.stampOf d ∨
      (l.beginUpdate expiry g).stampOf d = 0 := by
  rw [beginUpdate]
  split
  · split
    · exact .inl rfl
    · exact l.stampOf_expire_or expiry d
  · exact .inl rfl

@[simp] theorem stampOf_endUpdate : l.endUpdate.stampOf d = l.stampOf d := by
  rw [endUpdate]
  split
  · exact stampOf_dropAll
  · rfl

theorem stampOf_abortUpdate (l : Ledger) (expiry : Expiry) (d : Nat) :
    (l.abortUpdate expiry).stampOf d = l.stampOf d ∨
      (l.abortUpdate expiry).stampOf d = 0 := by
  rw [abortUpdate]
  split
  · exact l.stampOf_expire_or expiry d
  · exact .inl rfl

/-- Confirming gives out the generation of the update to the entry confirmed; any other entry keeps
    its own or loses it. -/
theorem stampOf_confirm (known : e < l.entries.size) (expiry : Expiry) (d : Nat) :
    (l.confirm expiry e).stampOf d = l.stampOf d ∨ (l.confirm expiry e).stampOf d = 0 ∨
      (d = e ∧ l.updating = true ∧ (l.confirm expiry e).stampOf d = l.generation) := by
  rw [confirm]
  split
  case isTrue scanning =>
    show (l.stamp e l.generation).stampOf d = _ ∨ (l.stamp e l.generation).stampOf d = 0 ∨
      (_ ∧ _ ∧ (l.stamp e l.generation).stampOf d = _)
    by_cases same : d = e
    · rw [same]
      exact .inr (.inr ⟨rfl, scanning, stampOf_stamp_self known⟩)
    · exact .inl (stampOf_stamp_ne same)
  case isFalse =>
    split
    · rw [stampOf_park, stampOf_stamp_zero]
      split
      · exact .inr (.inl rfl)
      · exact (l.stampOf_expire_or expiry d).imp_right .inl
    · exact .inl stampOf_enrol

/-- A new entry carries zero, or the generation of the update it came in. -/
theorem stampOf_insert (l : Ledger) (expiry : Expiry) (label : String) (name encname : Bytes)
    (d : Nat) :
    (d ≠ l.entries.size ∧ (l.insert expiry label name encname).stampOf d = l.stampOf d) ∨
      (l.insert expiry label name encname).stampOf d = 0 ∨
      (d = l.entries.size ∧ l.updating = true ∧
        (l.insert expiry label name encname).stampOf d = l.generation) := by
  have bound : l.entries.size < (l.make label name encname).entries.size := by
    rw [make, Array.size_push]
    exact Nat.lt_succ_self _
  rcases stampOf_confirm bound expiry d with kept | dropped | confirmed
  · replace kept : (l.insert expiry label name encname).stampOf d =
        (l.make label name encname).stampOf d := kept
    by_cases new : d = l.entries.size
    · refine .inr (.inl (kept.trans ?_))
      rw [new, stampOf, entry_make]
    · refine .inl ⟨new, kept.trans ?_⟩
      by_cases older : d < l.entries.size
      · exact congrArg Entry.generation (Entries.entry_push_lt older)
      · have beyond : (l.make label name encname).entries.size ≤ d := by
          rw [make, Array.size_push]
          omega
        rw [stampOf_of_le beyond, stampOf_of_le (Nat.not_lt.mp older)]
  · exact .inr (.inl dropped)
  · exact .inr (.inr confirmed)

/-- An action leaves an entry that the directory holds its generation, or drops it, or confirms the
    entry in the present one. -/
theorem stampOf_act (tidy : l.Tidy) (accepts : l.Accepts action)
    (answers : l.Answers expiry action outcome) (held : (l.act expiry action outcome).Holds d) :
    (l.Holds d ∧ (l.act expiry action outcome).stampOf d = l.stampOf d) ∨
    (l.act expiry action outcome).stampOf d = 0 ∨
    (l.updating = true ∧ (l.act expiry action outcome).stampOf d = l.generation ∧
      (outcome = .made d ∨ action = .update d)) := by
  have before : (∀ label name encname, action ≠ .insert label name encname) → l.Holds d := by
    intro other
    rcases act_gains tidy accepts answers with ⟨⟨label, name, encname, action⟩, -⟩ | ⟨-, -, holds⟩
    · exact absurd action (other label name encname)
    · exact holds d held
  cases action with
  | insert label name encname =>
    obtain rfl : outcome = .made l.entries.size := answers
    rcases l.stampOf_insert expiry label name encname d with
      ⟨old, kept⟩ | dropped | ⟨rfl, scanning, confirmed⟩
    · exact .inl ⟨((holds_insert tidy).mp held).resolve_right old, kept⟩
    · exact .inr (.inl dropped)
    · exact .inr (.inr ⟨scanning, confirmed, .inl rfl⟩)
  | update e =>
    rcases stampOf_confirm (tidy.fit e accepts).bound expiry d with
      kept | dropped | ⟨rfl, scanning, confirmed⟩
    · exact .inl ⟨before (by simp), kept⟩
    · exact .inr (.inl dropped)
    · exact .inr (.inr ⟨scanning, confirmed, .inr rfl⟩)
  | lookupName name => exact .inl ⟨before (by simp), stampOf_counted⟩
  | lookupEncname encname => exact .inl ⟨before (by simp), stampOf_counted⟩
  | beginUpdate hold g =>
    rcases l.stampOf_beginUpdate expiry g d with kept | dropped
    · exact .inl ⟨before (by simp), kept⟩
    · exact .inr (.inl dropped)
  | endUpdate => exact .inl ⟨before (by simp), stampOf_endUpdate⟩
  | abortUpdate =>
    rcases l.stampOf_abortUpdate expiry d with kept | dropped
    · exact .inl ⟨before (by simp), kept⟩
    · exact .inr (.inl dropped)
  | purge => exact absurd held (not_holds_purge tidy)

end Ledger

/-- The ledger has the generations of the entries. -/
theorem Opened.stampOf_ledger (s : Opened) (e : Nat) :
    s.ledger.stampOf e = (s.entries.entry e).generation := by
  have bare : s.ledger.entries.entry e = (s.entries.entry e).bare := Entries.entry_map_bare
  rw [Ledger.stampOf, bare]
  rfl

namespace Deed

variable (deed : Deed) {others : Nat → Prop} {e : Nat}

/-- In the middle of an update, what is inserted and what is updated is confirmed. -/
theorem confirmed_iff (sound : deed.before.Sound others)
    (scanning : deed.before.dir.updating = true) :
    deed.confirmed = some e ↔
      deed.inserted = some e ∨ (deed.action = .update e ∧ deed.outcome = some .done) := by
  have inserts : ∀ e', deed.inserted = some e' → deed.confirmed = some e' := by
    intro e' inserted
    obtain ⟨label, name, encname, action⟩ := deed.insert_of_inserted sound inserted
    rw [confirmed, action]
    exact (if_pos (.inl scanning)).trans inserted
  constructor
  · intro h
    rw [confirmed] at h
    split at h
    · rw [if_pos (.inl scanning)] at h
      exact .inl h
    case h_2 d action =>
      split at h
      case isTrue done =>
        obtain rfl := Option.some.inj h
        exact .inr ⟨action, done.2⟩
      case isFalse => exact absurd h (by rintro ⟨⟩)
    · exact absurd h (by rintro ⟨⟩)
  · rintro (inserted | ⟨action, done⟩)
    · exact inserts e inserted
    · rw [confirmed, action]
      exact if_pos ⟨scanning, done⟩

/-- What begins an update confirms nothing. -/
theorem confirmed_of_begun {deed : Deed} {g : UInt64} (begun : deed.begun = some g) :
    deed.confirmed = none := by
  obtain ⟨before, action⟩ := deed
  cases action with
  | beginUpdate hold g => rfl
  | _ => exact absurd begun (by rintro ⟨⟩)

/-- What was confirmed since the last demotion. -/
theorem mem_confirmedSince {since earlier : List Deed} {begin : Deed}
    (demotes : begin.demotes = true) (calm : ∀ deed ∈ since, deed.demotes = false) :
    e ∈ confirmedSince (since ++ begin :: earlier) ↔ ∃ deed ∈ since, deed.confirmed = some e := by
  induction since with
  | nil =>
    rw [List.nil_append, confirmedSince_cons, if_pos demotes]
    simp
  | cons deed rest ih =>
    obtain ⟨keeps, calm⟩ := List.forall_mem_cons.mp calm
    rw [List.cons_append, confirmedSince_cons, if_neg (by simp [keeps]), List.mem_append,
      Option.mem_toList, ih calm]
    simp

/-- A deed leaves an entry that is held its generation, or drops it, or confirms the entry in the
    present one. -/
theorem stamped (sound : deed.before.Sound others) (held : deed.after.dir.Holds e) :
    (deed.before.dir.Holds e ∧
      (deed.after.entries.entry e).generation = (deed.before.entries.entry e).generation) ∨
    (deed.after.entries.entry e).generation = 0 ∨
    (deed.before.dir.updating = true ∧ deed.confirmed = some e ∧
      (deed.after.entries.entry e).generation = deed.before.dir.generation) := by
  rcases deed.cases sound with ⟨-, -, same⟩ | ⟨accepts, outcome, answer, answers, ledger, -⟩
  · rw [same] at held ⊢
    exact .inl ⟨held, rfl⟩
  · have there : (deed.before.ledger.act .swap deed.action outcome).Holds e := ledger ▸ held
    rw [← deed.after.stampOf_ledger, ← deed.before.stampOf_ledger, ledger]
    rcases Ledger.stampOf_act sound.ledger.toTidy accepts answers there with
      kept | dropped | ⟨scanning, stamp, which⟩
    · exact .inl kept
    · exact .inr (.inl dropped)
    · refine .inr (.inr ⟨scanning, (deed.confirmed_iff sound scanning).mpr ?_, stamp⟩)
      rcases which with rfl | action
      · exact .inl (by rw [inserted, answer])
      · rw [action] at answers
        obtain rfl : outcome = .done := answers
        exact .inr ⟨action, answer⟩

end Deed

namespace Opened

variable {deeds newer older since earlier : List Deed} {deed begin : Deed} {s : Opened} {e : Nat}
  {g : UInt64}

namespace Course

/-- What a deed found is where the directory had come to by then. -/
theorem until_deed (course : Course deeds s) (split : deeds = newer ++ deed :: older) :
    Course older deed.before := by
  induction course generalizing newer with
  | fresh => exact absurd split (by simp)
  | act action before ih =>
    cases newer with
    | nil =>
      obtain ⟨rfl, rfl⟩ := List.cons.inj split
      exact before
    | cons first rest => exact ih (List.cons.inj split).2
  | rest _ _ _ ih => exact ih split

/-- The generation that a held entry carries is none, or it was confirmed in it. -/
theorem stamped (course : Course deeds s) (held : s.dir.Holds e) :
    (s.entries.entry e).generation = 0 ∨ ∃ deed ∈ deeds, deed.confirmed = some e ∧
      deed.before.dir.updating = true ∧
      deed.before.dir.generation = (s.entries.entry e).generation := by
  induction course with
  | fresh _ _ _ active stale =>
    rcases held with h | h
    · exact absurd (active ▸ h) List.not_mem_nil
    · exact absurd (stale ▸ h) List.not_mem_nil
  | @act deeds s₁ action before ih =>
    obtain ⟨others, sound⟩ := before.sound
    rcases Deed.stamped ⟨s₁, action⟩ sound held with
      ⟨was, same⟩ | dropped | ⟨scanning, confirmed, stamp⟩
    · rw [same]
      exact (ih was).imp_right fun ⟨deed, old, told⟩ => ⟨deed, List.mem_cons_of_mem _ old, told⟩
    · exact .inl dropped
    · exact .inr ⟨_, List.mem_cons_self .., confirmed, scanning, stamp.symm⟩
  | rest _ rests _ ih =>
    rw [rests.dir] at held
    rw [rests.held e held]
    exact ih held

/-- An update under way was begun by a deed, and since then it was under way. -/
theorem bracket (course : Course deeds s) (scanning : s.dir.updating = true) :
    ∃ since begin earlier, deeds = since ++ begin :: earlier ∧
      begin.begun = some s.dir.generation ∧
      ∀ deed ∈ since, deed.begun = none ∧ deed.demotes = false ∧
        deed.before.dir.updating = true := by
  induction course with
  | fresh _ _ idle => exact absurd (idle.symm.trans scanning) Bool.false_ne_true
  | @act deeds s₁ action before ih =>
    obtain ⟨others, sound⟩ := before.sound
    have sound' := (Deed.leads ⟨s₁, action⟩ sound).1
    rcases Deed.turns ⟨s₁, action⟩ sound with
      ⟨g, begun, generation, -⟩ | ⟨begun, aborts, strays, generation, updating⟩ | dropped
    · exact ⟨[], ⟨s₁, action⟩, deeds, rfl, by rw [generation]; exact begun, List.forall_mem_nil _⟩
    · have under_way : s₁.dir.updating = true := by
        cases ends : Deed.ends ⟨s₁, action⟩ with
        | false => exact (updating ends).symm.trans scanning
        | true =>
          replace ends : action = .endUpdate ∧ s₁.dir.updating = true := of_decide_eq_true ends
          exact ends.2
      obtain ⟨since, begin, earlier, split, from_begin, calm⟩ := ih under_way
      rw [generation]
      have keeps : Deed.demotes ⟨s₁, action⟩ = false := Deed.demotes_eq_false _ begun aborts strays
      exact ⟨⟨s₁, action⟩ :: since, begin, earlier, congrArg _ split, from_begin,
        List.forall_mem_cons.mpr ⟨⟨begun, keeps, under_way⟩, calm⟩⟩
    · exact absurd dropped (sound'.ledger.scan scanning)
  | rest _ rests _ ih =>
    rw [rests.dir] at scanning ⊢
    exact ih scanning

/-- In the middle of an update the active entries are those confirmed since it was begun. -/
theorem active_iff (course : Course deeds s) (split : deeds = since ++ begin :: earlier)
    (begun : begin.begun = some g) (calm : ∀ deed ∈ since, deed.demotes = false) :
    e ∈ s.dir.activeEntries ↔
      (∃ deed ∈ since, deed.confirmed = some e) ∧ (s.entries.entry e).live = true := by
  have demotes : begin.demotes = true := by
    rw [Deed.demotes, begun]
    rfl
  rw [course.recency, List.mem_filter, List.mem_eraseDups, split,
    Deed.mem_confirmedSince demotes calm]

/-- A stale entry that looks like an active one was confirmed before the update was begun, in an
    earlier update to the same generation. -/
theorem stamped_before (course : Course deeds s) (scanning : s.dir.updating = true)
    (split : deeds = since ++ begin :: earlier) (begun : begin.begun = some s.dir.generation)
    (calm : ∀ deed ∈ since, deed.demotes = false) (held : s.dir.Holds e)
    (stale : e ∉ s.dir.activeEntries)
    (stamp : (s.entries.entry e).generation = s.dir.generation) :
    ∃ deed ∈ earlier, deed.confirmed = some e ∧ deed.before.dir.updating = true ∧
      deed.before.dir.generation = s.dir.generation := by
  obtain ⟨others, sound⟩ := course.sound
  rcases course.stamped held with none | ⟨deed, was, confirmed, under_way, generation⟩
  · exact absurd (stamp.symm.trans none) (sound.ledger.scan scanning)
  · refine ⟨deed, ?_, confirmed, under_way, generation.trans stamp⟩
    rw [split] at was
    rcases List.mem_append.mp was with late | was
    · -- confirmed since, it would be active
      exact absurd ((course.active_iff split begun calm).mpr
        ⟨⟨deed, late, confirmed⟩, sound.holds_live held⟩) stale
    · refine (List.mem_cons.mp was).resolve_left ?_
      rintro rfl
      rw [Deed.confirmed_of_begun begun] at confirmed
      exact absurd confirmed (by rintro ⟨⟩)

/-- A directory that was in the middle of an update had begun it. -/
theorem begun_of_updating (course : Course deeds s) (was : deed ∈ deeds)
    (scanning : deed.before.dir.updating = true) :
    ∃ begin ∈ deeds, begin.begun = some deed.before.dir.generation := by
  obtain ⟨newer, older, split⟩ := List.append_of_mem was
  obtain ⟨since, begin, earlier, before, begun, -⟩ :=
    (course.until_deed split).bracket scanning
  refine ⟨begin, ?_, begun⟩
  rw [split, before]
  simp

end Course

end Opened

end NameCache
