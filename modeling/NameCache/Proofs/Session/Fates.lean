/-
  What becomes of an entry over a whole session.

  Once destroyed, an entry is never touched again (`Session.destroyed`).  An entry that was inserted
  through a directory is held by that directory or destroyed, and the second is certain once the
  directory has gone (`Session.keeps`).
-/
import NameCache.Proofs.Directory.Insertions
import NameCache.Proofs.Session.Courses

namespace NameCache

variable {w w' : World} {past : List Moment} {dir : Directory} {d e : Nat} {c : Command}
  {m : Moment} {deed : Deed} {label : String} {name encname : Bytes}

/-! ## Destroyed entries -/

/-- A destroyed entry stays as it is, whatever is done. -/
theorem Command.Passage.destroyed (passage : c.Passage w w') (sound : w.Sound)
    (he : e < w.entries.size) (gone : (w.entries.entry e).Destroyed) :
    e < w'.entries.size ∧ w'.entries.entry e = w.entries.entry e := by
  have of_leads : ∀ {d : Nat} {dir : Directory} {s : Opened}, w.directory? d = some dir →
      (w.opened dir).Leads s → w'.entries = s.entries →
      e < w'.entries.size ∧ w'.entries.entry e = w.entries.entry e := by
    intro d dir s here leads same
    rw [same]
    exact ⟨Nat.lt_of_lt_of_le he leads.grows, leads.destroyed (sound.hosts.opened here) he gone⟩
  cases passage with
  | quiet quiet _ =>
    rw [quiet.entries]
    exact ⟨he, rfl⟩
  | taken _ _ _ _ => exact ⟨he, rfl⟩
  | given _ _ _ => exact ⟨he, rfl⟩
  | made quiet _ _ _ _ =>
    rw [← quiet.entries] at he ⊢
    exact ⟨he, rfl⟩
  | worked here chain _ => exact of_leads here (chain.leads (sound.hosts.opened here)).2 rfl
  | gone here _ leads _ _ quiet _ _ => exact of_leads here leads quiet.entries

/-- A moment leaves destroyed entries as they are. -/
theorem Moment.destroyed (m : Moment) (sound : m.before.Sound) (he : e < m.before.entries.size)
    (gone : (m.before.entries.entry e).Destroyed) :
    e < m.after.entries.size ∧ m.after.entries.entry e = m.before.entries.entry e := by
  rcases m.passage sound with ⟨-, passage⟩ | ⟨same, -⟩
  · exact passage.destroyed sound he gone
  · rw [same]
    exact ⟨he, rfl⟩

/-- An entry destroyed once stays destroyed. -/
theorem Session.destroyed (session : Session past w) (was : m ∈ past)
    (he : e < m.before.entries.size) (gone : (m.before.entries.entry e).Destroyed) :
    e < w.entries.size ∧ w.entries.entry e = m.before.entries.entry e := by
  induction session using Session.steps with
  | start => exact absurd was List.not_mem_nil
  | quiet _ _ quiet ih =>
    rw [quiet.entries]
    exact ih was
  | @request past w before r ih =>
    rcases List.mem_cons.mp was with rfl | old
    · exact Moment.destroyed ⟨w, r⟩ before.sound he gone
    · obtain ⟨lt, same⟩ := ih old
      obtain ⟨lt', same'⟩ := Moment.destroyed ⟨w, r⟩ before.sound lt (same.symm ▸ gone)
      exact ⟨lt', same'.trans same⟩

/-! ## Inserted entries -/

/-- What becomes of an entry that was inserted through directory `d`. -/
structure World.Keeps (w : World) (d e : Nat) (label : String) (name encname : Bytes) : Prop where
  lt : e < w.entries.size
  name : (w.entries.entry e).name = name
  encname : (w.entries.entry e).encname = encname
  key : (w.entries.entry e).key = some label ∨ (w.entries.entry e).key = none
  fate : (∃ dir, w.directory? d = some dir ∧ dir.Holds e) ∨ (w.entries.entry e).Destroyed

/-- It is one of those that the directory keeps. -/
theorem World.Keeps.of_opened (here : w.directory? d = some dir)
    (keeps : (w.opened dir).Keeps e label name encname) : w.Keeps d e label name encname :=
  ⟨keeps.lt, keeps.name, keeps.encname, keeps.key,
    keeps.fate.imp_left fun held => ⟨dir, here, held⟩⟩

/-- Once the directory has gone, the entry is destroyed for good. -/
theorem World.Keeps.of_destroyed (keeps : w.Keeps d e label name encname)
    (gone : (w.entries.entry e).Destroyed) (lt : e < w'.entries.size)
    (same : w'.entries.entry e = w.entries.entry e) : w'.Keeps d e label name encname := by
  refine ⟨lt, ?_, ?_, ?_, .inr ?_⟩
  · rw [same, keeps.name]
  · rw [same, keeps.encname]
  · rw [same]
    exact keeps.key
  · rw [same]
    exact gone

/-- A directory that is there before a request and not afterwards has been purged. -/
theorem Command.Passage.leaves (passage : c.Passage w w') (here : w.directory? d = some dir)
    (left : w'.directory? d = none) :
    c.deeds w d = [] ∧ ∃ s, (w.opened dir).Leads s ∧ (∀ e, ¬ s.dir.Holds e) ∧
      s.ledger = (w.opened dir).ledger.purge ∧ w'.entries = s.entries ∧
      w'.log.keys = s.log.keys := by
  cases passage with
  | quiet quiet _ =>
    rw [quiet.directory?] at left
    exact absurd (here.symm.trans left) (by rintro ⟨⟩)
  | taken _ _ _ _ => exact absurd (here.symm.trans left) (by rintro ⟨⟩)
  | given _ _ _ => exact absurd (here.symm.trans left) (by rintro ⟨⟩)
  | @made w₁ new quiet _ _ _ _ =>
    rw [World.directory?_push, Family.set_ne, quiet.directory?] at left
    · exact absurd (here.symm.trans left) (by rintro ⟨⟩)
    · rw [quiet.directories]
      exact Nat.ne_of_lt (World.lt_of_directory? here)
  | @worked d₁ dir₁ s there _ _ =>
    rw [World.directory?_put there] at left
    by_cases h : d = d₁
    · rw [h, Family.set_self] at left
      exact absurd left (by rintro ⟨⟩)
    · rw [Family.set_ne h] at left
      exact absurd (here.symm.trans left) (by rintro ⟨⟩)
  | @gone d₁ dir₁ s _ there _ leads empty purged quiet _ none =>
    rw [quiet.directory?, World.directory?_without there] at left
    by_cases h : d = d₁
    · subst h
      obtain rfl := Option.some.inj (here.symm.trans there)
      exact ⟨none d, s, leads, empty, purged, quiet.entries, quiet.keys⟩
    · rw [Family.set_ne h] at left
      exact absurd (here.symm.trans left) (by rintro ⟨⟩)

/-- What becomes of an entry that was inserted in the course of a session. -/
theorem Session.keeps (session : Session past w) (was : deed ∈ deedsOf past d)
    (action : deed.action = .insert label name encname) (inserted : deed.inserted = some e) :
    w.Keeps d e label name encname := by
  induction session using Session.steps with
  | start => exact absurd was List.not_mem_nil
  | quiet _ _ quiet ih =>
    obtain ⟨lt, same_name, same_encname, key, fate⟩ := ih was
    rw [← quiet.entries] at lt same_name same_encname key fate
    exact ⟨lt, same_name, same_encname, key, by rwa [quiet.directory?]⟩
  | @request past w before r ih =>
    have after := before.request r
    -- as long as the directory is there, its course tells
    cases there : World.directory? (r.answer w).2 d with
    | some dir' => exact .of_opened there ((after.course there).keeps was action inserted)
    | none =>
      cases here : w.directory? d with
      | none =>
        -- it had gone before, and took the entry with it
        rw [deedsOf, List.flatMap_cons, Moment.deeds_eq_nil ⟨w, r⟩ here] at was
        have keeps := ih was
        have gone : (w.entries.entry e).Destroyed := by
          refine keeps.fate.resolve_left ?_
          rintro ⟨dir, h, -⟩
          exact absurd (h.symm.trans here) (by rintro ⟨⟩)
        obtain ⟨lt, same⟩ := Moment.destroyed ⟨w, r⟩ before.sound keeps.lt gone
        exact keeps.of_destroyed gone lt same
      | some dir =>
        -- it goes with this request, which empties it first
        rcases Moment.passage ⟨w, r⟩ before.sound with ⟨heard, passage⟩ | ⟨same, -⟩
        · obtain ⟨none, s, leads, empty, -, entries, -⟩ := passage.leaves here there
          rw [deedsOf, List.flatMap_cons, Moment.deeds, if_pos heard, none] at was
          have sound := before.sound.hosts.opened here
          have keeps := ((before.course here).keeps was action inserted).leads sound leads
          replace entries : (r.answer w).2.entries = s.entries := entries
          have gone := keeps.fate.resolve_left (empty e)
          obtain ⟨lt, same_name, same_encname, key, -⟩ := keeps
          rw [← entries] at lt same_name same_encname key gone
          exact ⟨lt, same_name, same_encname, key, .inr gone⟩
        · replace same : (r.answer w).2 = w := same
          rw [same] at there
          exact absurd (here.symm.trans there) (by rintro ⟨⟩)

/-- An entry that was inserted is held by its directory, if that is there, or destroyed. -/
theorem Session.fate (session : Session past w) (he : e ∈ Deed.insertions (deedsOf past d)) :
    e < w.entries.size ∧
      ((∃ dir, w.directory? d = some dir ∧ dir.Holds e) ∨ (w.entries.entry e).Destroyed) := by
  obtain ⟨deed, was, inserted⟩ := List.mem_filterMap.mp he
  obtain ⟨others, sound⟩ := session.deeds_sound deed was
  obtain ⟨label, name, encname, action⟩ := deed.insert_of_inserted sound inserted
  have keeps := session.keeps was action inserted
  exact ⟨keeps.lt, keeps.fate⟩

end NameCache
