/-
  Every session keeps its world in order, and every directory of it has a course.

  A request is a passage or is not heard at all, so both are inductions over the session with one
  case per passage.  The crux is `World.course_elsewhere`: whatever is done elsewhere, a directory
  that stays in its place rests.  A directory that is made has no deeds yet, because requests about
  a number that no directory has come to nothing (`Session.deedsOf_eq_nil`).
-/
import NameCache.Proofs.Session.Passage

namespace NameCache

open Step

variable {w w' : World} {past : List Moment} {dir dir' : Directory} {d d' : Nat} {c : Command}
  {deeds : List Deed} {s : Opened}

/-! ## Moments -/

theorem Request.answer_snd (r : Request) (w : World) : (r.answer w).2 = settled r.run w := by
  rw [answer, settled]
  cases r.run w <;> rfl

/-- A request is carried out if it is heard, and else refused at once. -/
theorem Moment.run_eq (m : Moment) : m.request.run m.before =
    if m.heard then m.request.command.run m.before
    else .error (.missing .directory) m.before := by
  obtain ⟨w, about, command⟩ := m
  rw [Request.run, heard]
  cases about with
  | none => rfl
  | some d =>
    have found := need_run .directory (·.directory? d) w
    show (Running.directory d >>= fun _ => command.run) w =
      if (w.directory? d).isSome then command.run w else _
    cases here : w.directory? d with
    | none =>
      rw [here] at found
      exact bind_of_error found
    | some dir =>
      rw [here] at found
      exact bind_of_ok found

theorem Moment.after_eq (m : Moment) :
    m.after = if m.heard then settled m.request.command.run m.before else m.before := by
  rw [after, Request.answer_snd, settled, m.run_eq]
  by_cases heard : m.heard = true
  · rw [if_pos heard, if_pos heard]
    rfl
  · rw [if_neg heard, if_neg heard]

theorem Request.after_eq (r : Request) (w : World) :
    (r.answer w).2 = if (⟨w, r⟩ : Moment).heard then settled r.command.run w else w :=
  Moment.after_eq ⟨w, r⟩

/-- A request is a passage, or neither the world nor any directory notices. -/
theorem Moment.passage (m : Moment) (sound : m.before.Sound) :
    (m.heard = true ∧ m.request.command.Passage m.before m.after) ∨
      (m.after = m.before ∧ ∀ d, m.deeds d = []) := by
  rw [m.after_eq]
  by_cases heard : m.heard = true
  · rw [if_pos heard]
    exact .inl ⟨heard, m.request.command.passage sound⟩
  · rw [if_neg heard]
    refine .inr ⟨rfl, fun d => ?_⟩
    rw [deeds, if_neg heard]

/-! ## Soundness -/

theorem World.sound_empty : ({} : World).Sound where
  hosts :=
    { standing := by rintro d dir ⟨⟩
      ledger := by rintro d dir ⟨⟩
      disjoint := by rintro d d' dir dir' e ⟨⟩
      pools := fun p hp => absurd hp (Nat.not_lt_zero p)
      fate := fun e he => absurd he (Nat.not_lt_zero e)
      pool_lt := by rintro d dir ⟨⟩
      manager_lt := by rintro d dir ⟨⟩ }
  wired := ⟨Nat.le_refl _, by rintro h p ⟨⟩, by rintro m manager p ⟨⟩⟩

/-- Making a manager is a quiet step. -/
theorem World.quiet_addManager {threads m : Nat} {settings : Settings} (wired : w.Wired)
    (made : World.addManager threads settings w = .ok m w') : w.Quiet w' := by
  have quiet := World.hushed_addManager threads settings w wired
  rwa [settled_of_ok made] at quiet

theorem World.quiet_addManagerOf {buckets locks m : Nat} {settings : Settings} (wired : w.Wired)
    (made : World.addManagerOf settings buckets locks w = .ok m w') : w.Quiet w' := by
  have quiet := World.hushed_addManagerOf settings buckets locks w wired
  rwa [settled_of_ok made] at quiet

/-- The world is in order all along. -/
theorem Session.sound (session : Session past w) : w.Sound := by
  induction session with
  | start => exact World.sound_empty
  | manager _ made sound => exact sound.quiet (World.quiet_addManager sound.wired made)
  | managerOf _ made sound => exact sound.quiet (World.quiet_addManagerOf sound.wired made)
  | @request _ w _ r sound =>
    rcases Moment.passage ⟨w, r⟩ sound with ⟨-, passage⟩ | ⟨same, -⟩
    · exact passage.sound sound
    · replace same : (r.answer w).2 = w := same
      rwa [same]

/-- Induction over a session.  Managers come without touching anything, however they come, and
    requests are carried out. -/
@[elab_as_elim]
theorem Session.steps {motive : ∀ past w, Session past w → Prop} (start : motive [] {} .start)
    (quiet : ∀ {past w w'} (before : Session past w) (after : Session past w'), w.Quiet w' →
      motive past w before → motive past w' after)
    (request : ∀ {past w} (before : Session past w) (r : Request), motive past w before →
      motive (⟨w, r⟩ :: past) (r.answer w).2 (before.request r))
    {past : List Moment} {w : World} (session : Session past w) : motive past w session := by
  induction session with
  | start => exact start
  | manager before made ih =>
    exact quiet before _ (World.quiet_addManager before.sound.wired made) ih
  | managerOf before made ih =>
    exact quiet before _ (World.quiet_addManagerOf before.sound.wired made) ih
  | request before r ih => exact request before r ih

/-- What a moment found is a world that the session was in before. -/
theorem Session.earlier {m : Moment} (session : Session past w) (was : m ∈ past) :
    ∃ earlier, Session earlier m.before := by
  induction session using Session.steps with
  | start => exact absurd was List.not_mem_nil
  | quiet _ _ _ ih => exact ih was
  | request before _ ih =>
    rcases List.mem_cons.mp was with rfl | old
    · exact ⟨_, before⟩
    · exact ih old

/-! ## Courses -/

theorem Moment.deeds_eq_nil (m : Moment) (none : m.before.directory? d = none) :
    m.deeds d = [] := by
  rw [deeds, Command.deeds_eq_nil _ none, ite_self]

/-- No place of a directory is ever lost. -/
theorem Command.Passage.size_le (passage : c.Passage w w') :
    w.directories.size ≤ w'.directories.size := by
  cases passage with
  | quiet quiet _ => exact Nat.le_of_eq (congrArg Array.size quiet.directories.symm)
  | taken _ _ _ _ => exact Nat.le_refl _
  | given _ _ _ => exact Nat.le_refl _
  | made quiet _ _ _ _ =>
    show w.directories.size ≤ (Array.push _ _).size
    rw [Array.size_push, quiet.directories]
    exact Nat.le_succ _
  | worked _ _ _ => exact Nat.le_of_eq Array.size_setIfInBounds.symm
  | gone _ _ _ _ _ quiet _ _ =>
    refine Nat.le_of_eq (Eq.trans ?_ (congrArg Array.size quiet.directories.symm))
    exact Array.size_setIfInBounds.symm

theorem Moment.size_le (m : Moment) (sound : m.before.Sound) :
    m.before.directories.size ≤ m.after.directories.size := by
  rcases m.passage sound with ⟨-, passage⟩ | ⟨same, -⟩
  · exact passage.size_le
  · exact Nat.le_of_eq (congrArg (·.directories.size) same.symm)

/-- Nothing was done yet to a directory that is still to be made. -/
theorem Session.deedsOf_eq_nil (session : Session past w) (hd : w.directories.size ≤ d) :
    deedsOf past d = [] := by
  induction session using Session.steps with
  | start => rfl
  | quiet _ _ quiet ih =>
    rw [quiet.directories] at hd
    exact ih hd
  | @request past w before r ih =>
    have old : w.directories.size ≤ d :=
      Nat.le_trans (Moment.size_le ⟨w, r⟩ before.sound) hd
    have free : w.directory? d = none := by
      rw [World.directory?, Array.getElem?_eq_none old]
      rfl
    rw [deedsOf, List.flatMap_cons, Moment.deeds_eq_nil _ free]
    exact ih old

namespace World

/-- A directory whose entries are as they were, and that is as it was, rests. -/
theorem course_of_same (course : Opened.Course deeds (w.opened dir)) (sound : w'.Sound)
    (there : w'.directory? d = some dir) (same : w'.entries = w.entries) :
    Opened.Course deeds (w'.opened dir) :=
  .rest course ⟨rfl, Nat.le_of_eq (congrArg Array.size same.symm), fun _ _ => by
    show w'.entries.entry _ = w.entries.entry _
    rw [same], fun _ _ _ => by
    show w'.entries.entry _ = w.entries.entry _
    rw [same]⟩ (sound.hosts.opened there)

/-- Whatever is done on another directory, this one rests. -/
theorem course_elsewhere (sound : w.Sound) (here : w.directory? d = some dir)
    (leads : (w.opened dir).Leads s) (there : w.directory? d' = some dir') (ne : d' ≠ d)
    (course : Opened.Course deeds (w.opened dir')) (sound' : w'.Sound)
    (stays : w'.directory? d' = some dir') (same : w'.entries = s.entries) :
    Opened.Course deeds (w'.opened dir') := by
  refine .rest course ⟨rfl, ?_, fun e held => ?_, fun e he gone => ?_⟩ (sound'.hosts.opened stays)
  · show w.entries.size ≤ w'.entries.size
    rw [same]
    exact leads.grows
  · show w'.entries.entry e = _
    rw [same]
    exact sound.hosts.other_same here leads there ne held
  · show w'.entries.entry e = _
    rw [same]
    exact leads.destroyed (sound.hosts.opened here) he gone

end World

/-- A passage takes the course of each directory further. -/
theorem Command.Passage.course (passage : c.Passage w w') (sound : w.Sound) (past : Nat → List Deed)
    (courses : ∀ d dir, w.directory? d = some dir → Opened.Course (past d) (w.opened dir))
    (unmade : past w.directories.size = []) (there : w'.directory? d = some dir) :
    Opened.Course (c.deeds w d ++ past d) (w'.opened dir) := by
  have sound' := passage.sound sound
  cases passage with
  | quiet quiet none =>
    have before : w.directory? d = some dir := by rwa [quiet.directory?] at there
    rw [none]
    exact World.course_of_same (courses d dir before) sound' there quiet.entries
  | taken _ _ _ none =>
    rw [none]
    exact World.course_of_same (courses d dir there) sound' there rfl
  | given _ _ none =>
    rw [none]
    exact World.course_of_same (courses d dir there) sound' there rfl
  | @made w₁ new quiet blank _ _ none =>
    rw [none]
    have places := there
    rw [World.directory?_push, quiet.directory?] at places
    rcases Family.set_eq_some places with ⟨rfl, rfl⟩ | ⟨-, before⟩
    · -- nothing was done yet to the directory that was made
      have fresh : past w₁.directories.size = [] := by rw [quiet.directories, unmade]
      rw [fresh]
      exact .fresh (sound'.hosts.opened there) blank.1 blank.2.1 blank.activeEntries
        blank.staleEntries
    · exact World.course_of_same (courses d dir before) sound' there quiet.entries
  | @worked d₁ dir₁ s here chain others =>
    have places := there
    rw [World.directory?_put here] at places
    rcases Family.set_eq_some places with ⟨rfl, rfl⟩ | ⟨h, before⟩
    · exact .rest ((courses _ dir₁ here).chain chain)
        ⟨rfl, Nat.le_refl _, fun _ _ => rfl, fun _ _ _ => rfl⟩ (sound'.hosts.opened there)
    · rw [others d h]
      exact World.course_elsewhere sound here (chain.leads (sound.hosts.opened here)).2 before h
        (courses d dir before) sound' there rfl
  | @gone d₁ dir₁ s _ here _ leads _ _ quiet _ none =>
    have places := there
    rw [quiet.directory?, World.directory?_without here] at places
    by_cases h : d = d₁
    · rw [h, Family.set_self] at places
      exact absurd places (by rintro ⟨⟩)
    · rw [Family.set_ne h] at places
      rw [none]
      exact World.course_elsewhere sound here leads places h (courses d dir places) sound' there
        quiet.entries

/-- Every directory that exists has a course, made of what was done to it. -/
theorem Session.course (session : Session past w) (here : w.directory? d = some dir) :
    Opened.Course (deedsOf past d) (w.opened dir) := by
  induction session using Session.steps generalizing d dir with
  | start => exact absurd here (by rintro ⟨⟩)
  | quiet _ after quiet ih =>
    have there := here
    rw [quiet.directory?] at there
    exact World.course_of_same (ih there) after.sound here quiet.entries
  | @request past w before r ih =>
    rcases Moment.passage ⟨w, r⟩ before.sound with ⟨heard, passage⟩ | ⟨same, none⟩
    · have unmade := before.deedsOf_eq_nil (Nat.le_refl w.directories.size)
      have course := passage.course before.sound (deedsOf past)
        (fun d dir there => ih there) unmade here
      rw [deedsOf, List.flatMap_cons, Moment.deeds, if_pos heard]
      exact course
    · replace same : (r.answer w).2 = w := same
      rw [same] at here ⊢
      rw [deedsOf, List.flatMap_cons, none]
      exact ih here

/-- What a command does to a directory is done without a break. -/
theorem Command.Passage.chain (passage : c.Passage w w') (here : w.directory? d = some dir) :
    ∃ s, Chain (w.opened dir) (c.deeds w d) s := by
  have idle : c.deeds w d = [] → ∃ s, Chain (w.opened dir) (c.deeds w d) s := fun none => by
    rw [none]
    exact ⟨_, .nil⟩
  cases passage with
  | quiet _ none => exact idle (none d)
  | taken _ _ _ none => exact idle (none d)
  | given _ _ none => exact idle (none d)
  | made _ _ _ _ none => exact idle (none d)
  | @worked d' dir' s there chain others =>
    by_cases same : d = d'
    · subst same
      obtain rfl := Option.some.inj (here.symm.trans there)
      exact ⟨s, chain⟩
    · exact idle (others d same)
  | gone _ _ _ _ _ _ _ none => exact idle (none d)

/-- Every deed found its directory in order. -/
theorem Moment.deeds_sound (m : Moment) (sound : m.before.Sound) :
    ∀ deed ∈ m.deeds d, ∃ others, deed.before.Sound others := by
  intro deed was
  cases here : m.before.directory? d with
  | none =>
    rw [m.deeds_eq_nil here] at was
    exact absurd was List.not_mem_nil
  | some dir =>
    rcases m.passage sound with ⟨heard, passage⟩ | ⟨-, none⟩
    · obtain ⟨s, chain⟩ := passage.chain here
      rw [deeds, if_pos heard] at was
      exact ⟨_, chain.each_sound (sound.hosts.opened here) deed was⟩
    · rw [none] at was
      exact absurd was List.not_mem_nil

theorem Session.deeds_sound (session : Session past w) :
    ∀ deed ∈ deedsOf past d, ∃ others, deed.before.Sound others := by
  intro deed was
  obtain ⟨m, here, was⟩ := List.mem_flatMap.mp was
  obtain ⟨earlier, before⟩ := session.earlier here
  exact m.deeds_sound before.sound deed was

end NameCache
