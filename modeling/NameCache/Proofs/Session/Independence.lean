/-
  A directory shows nothing of the others.

  Whatever a session does elsewhere, and whatever pool a directory is on, what its own requests
  bring to light is what they would if it were alone on a pool of one bucket and one lock
  (`Session.independence`): the answers, the key events, the generations, the status, the lengths
  and the lists, with entries numbered in the order of their insertion into the directory.  All it
  takes is that no two directories that share a pool have the same number at the same time.

  Two runs are compared, so this is not an invariant of one of them; but each of them shows what
  the directory's ledger in its own terms tells (`Course.sights_eq`), and the ledgers are equal.
-/
import NameCache.Proofs.Directory.Alone
import NameCache.Proofs.Session.Fates
import NameCache.Proofs.Session.Lookups

namespace NameCache

variable {w w' : World} {past : List Moment} {dir : Directory} {d : Nat} {c : Command}
  {deeds : List Deed} {deed : Deed} {s s' : Opened} {others : Nat → Prop}

/-! ## Deeds on a shared pool -/

/-- Deeds without a break leave alone what others have on the pool. -/
theorem Chain.apart (chain : Chain s deeds s') (sound : s.Sound others)
    (strange : ∀ e, others e → (s.entries.entry e).dir ≠ s.dir.id) :
    ∀ deed ∈ deeds, deed.Apart := by
  induction chain with
  | nil => exact fun _ h => absurd h List.not_mem_nil
  | @cons deeds s₁ action chain ih =>
    obtain ⟨sound₁, leads⟩ := chain.leads sound
    refine List.forall_mem_cons.mpr ⟨⟨others, sound₁, fun e other => ?_⟩, ih⟩
    have known := (sound.apart e other).2
    show (s₁.entries.entry e).dir ≠ s₁.dir.id
    rw [(leads.names e known).1, leads.id]
    exact strange e other

theorem Moment.deeds_apart (m : Moment) (sound : m.before.Sound) (apart : m.before.Apart) :
    ∀ deed ∈ m.deeds d, deed.Apart := by
  intro deed was
  cases here : m.before.directory? d with
  | none =>
    rw [m.deeds_eq_nil here] at was
    exact absurd was List.not_mem_nil
  | some dir =>
    rcases m.passage sound with ⟨heard, passage⟩ | ⟨-, none⟩
    · obtain ⟨s, chain⟩ := passage.chain here
      rw [deeds, if_pos heard] at was
      exact chain.apart (sound.hosts.opened here) (sound.strange (apart.unmistaken here))
        deed was
    · rw [none] at was
      exact absurd was List.not_mem_nil

/-- If directories that share a pool have different numbers all along, no deed ever meets an entry
    of another directory with its own number. -/
theorem Session.deeds_apart (session : Session past w) (apart : ∀ m ∈ past, m.before.Apart) :
    ∀ deed ∈ deedsOf past d, deed.Apart := by
  intro deed was
  obtain ⟨m, here, was⟩ := List.mem_flatMap.mp was
  obtain ⟨earlier, before⟩ := session.earlier here
  exact m.deeds_apart before.sound (apart m here) deed was

/-! ## Directories that come and go -/

/-- A directory that is there after a command was there before, with the same number, or is new. -/
theorem Command.Passage.origin (passage : c.Passage w w') (sound : w.Sound)
    (there : w'.directory? d = some dir) :
    (∃ before, w.directory? d = some before ∧ dir.id = before.id) ∨ w.directories.size ≤ d := by
  cases passage with
  | quiet quiet _ =>
    rw [quiet.directory?] at there
    exact .inl ⟨dir, there, rfl⟩
  | taken _ _ _ _ => exact .inl ⟨dir, there, rfl⟩
  | given _ _ _ => exact .inl ⟨dir, there, rfl⟩
  | made quiet _ _ _ _ =>
    rw [World.directory?_push, quiet.directory?, quiet.directories] at there
    rcases Family.set_eq_some there with ⟨rfl, -⟩ | ⟨-, before⟩
    · exact .inr (Nat.le_refl _)
    · exact .inl ⟨dir, before, rfl⟩
  | worked here chain _ =>
    rw [World.directory?_put here] at there
    rcases Family.set_eq_some there with ⟨rfl, rfl⟩ | ⟨-, before⟩
    · exact .inl ⟨_, here, (chain.leads (sound.hosts.opened here)).2.id⟩
    · exact .inl ⟨dir, before, rfl⟩
  | @gone d' _ _ _ here _ _ _ _ quiet _ _ =>
    rw [quiet.directory?, World.directory?_without here] at there
    by_cases same : d = d'
    · rw [same, Family.set_self] at there
      exact absurd there (by simp)
    · rw [Family.set_ne same] at there
      exact .inl ⟨dir, there, rfl⟩

theorem Moment.origin (m : Moment) (sound : m.before.Sound)
    (there : m.after.directory? d = some dir) :
    (∃ before, m.before.directory? d = some before ∧ dir.id = before.id) ∨
      m.before.directories.size ≤ d := by
  rcases m.passage sound with ⟨-, passage⟩ | ⟨same, -⟩
  · exact passage.origin sound there
  · rw [same] at there
    exact .inl ⟨dir, there, rfl⟩

/-- Nothing is done to a directory by the request that does away with it. -/
theorem Moment.deeds_of_gone (m : Moment) (sound : m.before.Sound)
    (gone : m.after.directory? d = none) : m.deeds d = [] := by
  cases here : m.before.directory? d with
  | none => exact m.deeds_eq_nil here
  | some dir =>
    rcases m.passage sound with ⟨heard, passage⟩ | ⟨-, none⟩
    · rw [deeds, if_pos heard]
      exact (passage.leaves here gone).1
    · exact none d

/-- The key events of that request are those of a purge. -/
theorem Moment.keys_of_gone (m : Moment) (sound : m.before.Sound)
    (here : m.before.directory? d = some dir) (gone : m.after.directory? d = none) :
    (m.request.answer m.before).1.keys = (m.before.opened dir).ledger.keyEvents .purge := by
  rcases m.passage sound with ⟨-, passage⟩ | ⟨same, -⟩
  · obtain ⟨-, s, -, -, purged, -, keys⟩ := passage.leaves here gone
    have tidy := (sound.hosts.opened here).ledger.toTidy
    exact Log.keys_since (keys.trans ((congrArg Ledger.keys purged).trans (Ledger.keys_purge tidy)))
  · rw [same, here] at gone
    exact absurd gone (by simp)

/-- Directory `d` is there as `dir`, or was at the time of a request. -/
def World.Had (w : World) (past : List Moment) (d : Nat) (dir : Directory) : Prop :=
  w.directory? d = some dir ∨ ∃ m ∈ past, m.before.directory? d = some dir

namespace Session

variable {m : Moment} {now : Directory}

/-- A directory that was there once has a number below all new ones. -/
theorem had_lt (session : Session past w) (had : w.Had past d dir) : d < w.directories.size := by
  induction session using Session.steps with
  | start =>
    rcases had with h | ⟨m, was, -⟩
    · exact absurd h (by rintro ⟨⟩)
    · exact absurd was List.not_mem_nil
  | quiet _ _ quiet ih =>
    rw [World.Had, quiet.directory?] at had
    rw [quiet.directories]
    exact ih had
  | @request past w before r ih =>
    have grows : w.directories.size ≤ (r.answer w).2.directories.size :=
      Moment.size_le ⟨w, r⟩ before.sound
    rcases had with h | ⟨m, was, h⟩
    · exact World.lt_of_directory? h
    · rcases List.mem_cons.mp was with rfl | old
      · exact Nat.lt_of_lt_of_le (World.lt_of_directory? h) grows
      · exact Nat.lt_of_lt_of_le (ih (.inr ⟨m, old, h⟩)) grows

/-- What is there after a request is new, or was there before it. -/
theorem had_before {r : Request} (had : (r.answer w).2.Had (⟨w, r⟩ :: past) d dir)
    (gone : (r.answer w).2.directory? d ≠ some dir) : w.Had past d dir := by
  rcases had with h | ⟨m, was, h⟩
  · exact absurd h gone
  · rcases List.mem_cons.mp was with rfl | old
    · exact .inl h
    · exact .inr ⟨m, old, h⟩

/-- A directory keeps its number. -/
theorem same_id (session : Session past w) (had : w.Had past d dir)
    (here : w.directory? d = some now) : now.id = dir.id := by
  induction session using Session.steps generalizing now with
  | start => exact absurd here (by rintro ⟨⟩)
  | quiet _ _ quiet ih =>
    rw [World.Had, quiet.directory?] at had
    rw [quiet.directory?] at here
    exact ih had here
  | @request past w before r ih =>
    by_cases same : (r.answer w).2.directory? d = some dir
    · exact congrArg Directory.id (Option.some.inj (here.symm.trans same))
    · have had := had_before had same
      rcases Moment.origin ⟨w, r⟩ before.sound here with ⟨earlier, there, number⟩ | new
      · exact number.trans (ih had there)
      · exact absurd (before.had_lt had) (Nat.not_lt.mpr new)

/-- So it had the same number at any two times. -/
theorem had_id (session : Session past w) (had : w.Had past d dir) (had' : w.Had past d now) :
    now.id = dir.id := by
  induction session using Session.steps with
  | start =>
    rcases had with h | ⟨m, was, -⟩
    · exact absurd h (by rintro ⟨⟩)
    · exact absurd was List.not_mem_nil
  | quiet _ _ quiet ih =>
    rw [World.Had, quiet.directory?] at had had'
    exact ih had had'
  | @request past w before r ih =>
    by_cases last' : (r.answer w).2.directory? d = some now
    · exact (before.request r).same_id had last'
    · by_cases last : (r.answer w).2.directory? d = some dir
      · exact ((before.request r).same_id had' last).symm
      · exact ih (had_before had last) (had_before had' last')

/-- A directory that has gone does not come back. -/
theorem stays_gone (session : Session past w) (was : m ∈ past)
    (here : m.before.directory? d = some dir) (gone : m.after.directory? d = none) :
    w.directory? d = none := by
  induction session using Session.steps with
  | start => exact absurd was List.not_mem_nil
  | quiet _ _ quiet ih =>
    rw [quiet.directory?]
    exact ih was
  | @request past w before r ih =>
    rcases List.mem_cons.mp was with rfl | old
    · exact gone
    · have lost := ih old
      refine Option.eq_none_iff_forall_ne_some.mpr fun dir' there => ?_
      rcases Moment.origin ⟨w, r⟩ before.sound there with ⟨earlier, there, -⟩ | new
      · exact absurd (there.symm.trans lost) (by simp)
      · exact absurd (before.had_lt (.inr ⟨m, old, here⟩)) (Nat.not_lt.mpr new)

/-! ## Independence -/

/-- What was seen of a directory is what is seen of it alone. -/
theorem sights_alone (session : Session past w) (apart : ∀ m ∈ past, m.before.Apart)
    (had : w.Had past d dir) : Deed.sights (deedsOf past d) =
      Deed.sights ((Opened.alone dir.id).carried (Deed.actions (deedsOf past d))) := by
  induction session using Session.steps with
  | start => rfl
  | quiet _ _ quiet ih =>
    rw [World.Had, quiet.directory?] at had
    exact ih apart had
  | @request past w before r ih =>
    have after := before.request r
    cases there : World.directory? (r.answer w).2 d with
    | some now =>
      -- as long as the directory is there, its course tells
      rw [← after.same_id had there]
      exact (after.course there).sights_alone (after.deeds_apart apart)
    | none =>
      -- it had gone before or goes now, and nothing is done to it any more
      have none := Moment.deeds_of_gone ⟨w, r⟩ before.sound there
      rw [deedsOf, List.flatMap_cons, none]
      exact ih (List.forall_mem_cons.mp apart).2 (had_before had (by rw [there]; simp))

/-- The keys that are given back when a directory goes are those that it gives back alone. -/
theorem keys_alone (session : Session past w) (was : m ∈ past)
    (here : m.before.directory? d = some now) (gone : m.after.directory? d = none) :
    (m.request.answer m.before).1.keys =
      (Deed.sight ⟨(Opened.alone now.id).left (Deed.actions (deedsOf past d)), .purge⟩
        ((Opened.alone now.id).carried (Deed.actions (deedsOf past d)))).keys := by
  induction session using Session.steps with
  | start => exact absurd was List.not_mem_nil
  | quiet _ _ _ ih => exact ih was
  | @request past w before r ih =>
    have none : Moment.deeds ⟨w, r⟩ d = [] := Moment.deeds_of_gone ⟨w, r⟩ before.sound
      ((before.request r).stays_gone was here gone)
    rw [deedsOf, List.flatMap_cons, none]
    rcases List.mem_cons.mp was with rfl | old
    · have course := before.course here
      exact (Moment.keys_of_gone ⟨w, r⟩ before.sound here gone).trans course.purge_alone.symm
    · exact ih old

/-- In every session in which directories that share a pool have different numbers, each directory
    shows what the same actions show of a directory with its number that is alone on a pool of one
    bucket and one lock: in every answer, as long as it is there, and in the key events when it
    goes. -/
theorem independence (session : Session past w) (apart : ∀ m ∈ past, m.before.Apart)
    (had : w.Had past d dir) :
    Deed.sights (deedsOf past d) =
      Deed.sights ((Opened.alone dir.id).carried (Deed.actions (deedsOf past d))) ∧
    (∀ now, w.directory? d = some now → (w.opened now).view (Deed.own (deedsOf past d)) =
      ((Opened.alone dir.id).left (Deed.actions (deedsOf past d))).view
        (Deed.own ((Opened.alone dir.id).carried (Deed.actions (deedsOf past d))))) ∧
    ∀ m ∈ past, (∃ now, m.before.directory? d = some now) → m.after.directory? d = none →
      (m.request.answer m.before).1.keys =
        (Deed.sight ⟨(Opened.alone dir.id).left (Deed.actions (deedsOf past d)), .purge⟩
          ((Opened.alone dir.id).carried (Deed.actions (deedsOf past d)))).keys := by
  refine ⟨session.sights_alone apart had, fun now here => ?_, fun m was there gone => ?_⟩
  · rw [← session.same_id had here]
    exact (session.course here).view_alone
  · obtain ⟨now, here⟩ := there
    rw [← session.had_id had (.inr ⟨m, was, here⟩)]
    exact session.keys_alone was here gone

end Session

/-- Directories are kept in a finite array, so that can be checked. -/
instance World.decidableApart (w : World) : Decidable w.Apart :=
  decidable_of_iff (∀ d < w.directories.size, ∀ d' < w.directories.size,
    ∀ dir ∈ w.directory? d, ∀ dir' ∈ w.directory? d', dir.pool = dir'.pool → dir.id = dir'.id →
      d = d')
    ⟨fun h d d' dir dir' here there => h d (World.lt_of_directory? here) d'
      (World.lt_of_directory? there) dir here dir' there,
      fun h d _ d' _ dir here dir' there => h d d' dir dir' here there⟩

/-- Two directories on one pool are worked on in turns, with the same names. -/
def Request.turns : List Request :=
  [⟨none, .create 0 none⟩, ⟨none, .create 0 none⟩, ⟨none, .within 0 (.insert "k" [1] [2])⟩,
    ⟨none, .within 1 (.insert "k" [1] [2])⟩, ⟨none, .within 0 (.insert "k" [3] [4])⟩,
    ⟨none, .within 1 (.beginUpdate .exclusive 7)⟩, ⟨none, .within 1 (.update 2)⟩,
    ⟨none, .within 0 (.lookupName [3])⟩, ⟨none, .within 1 .endUpdate⟩]

/-- The second one shows what it would show alone. -/
theorem Session.independence_in_turns : ∃ past w dir, Session past w ∧
    w.directory? 1 = some dir ∧ (deedsOf past 1).length = 4 ∧
    Deed.sights (deedsOf past 1) =
      Deed.sights ((Opened.alone dir.id).carried (Deed.actions (deedsOf past 1))) := by
  have session := Session.small.answers Request.turns
  have apart : ∀ m ∈ World.small.moments [] Request.turns, m.before.Apart := by decide +kernel
  obtain ⟨dir, here⟩ := Option.isSome_iff_exists.mp
    (show ((World.small.answers Request.turns).2.directory? 1).isSome = true by decide +kernel)
  have independent := (Session.independence session apart (.inl here)).1
  exact ⟨_, _, dir, session, here, by decide +kernel, independent⟩

end NameCache
