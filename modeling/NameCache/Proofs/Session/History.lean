/-
  Sessions, with what was asked on the way.

  A moment is a request together with the world that it found.  `Session past w` says that the
  requests of `past`, the latest first, were carried out one after the other and led to `w`, each
  refused or not.  Managers may come at any time and have pools of any fit geometry, so the sessions
  of a fixed set of managers are among these, in every one of their states.

  `Moment.deeds` picks out what a moment did to one directory.  A command that looks an encrypted
  name up and confirms what it finds is two deeds; a request about a directory that does not exist
  is none.
-/
import NameCache.Proofs.Directory.Deeds
import NameCache.Session.Run

namespace NameCache

/-- The deeds of confirming the entry that an encrypted name finds. -/
def Deed.confirming (s : Opened) (encname : Bytes) : List Deed :=
  let look : Deed := ⟨s, .lookupEncname encname⟩
  match look.outcome with
  | some (.found (some e)) => [⟨look.after, .update e⟩, look]
  | _ => [look]

/-- What a command does to directory `d`. -/
def Command.deeds (w : World) (d : Nat) : Command → List Deed
  | .within d' action =>
    if d' = d then
      match w.directory? d with
      | some dir => [⟨w.opened dir, action⟩]
      | none => []
    else []
  | .confirm d' encname =>
    if d' = d then
      match w.directory? d with
      | some dir => Deed.confirming (w.opened dir) encname
      | none => []
    else []
  | _ => []

/-- What is done on a directory that does not exist comes to nothing. -/
theorem Command.deeds_eq_nil {w : World} {d : Nat} (c : Command) (none : w.directory? d = none) :
    c.deeds w d = [] := by
  cases c with
  | within d' action =>
    rw [Command.deeds]
    by_cases h : d' = d
    · rw [if_pos h, none]
    · rw [if_neg h]
  | confirm d' encname =>
    rw [Command.deeds]
    by_cases h : d' = d
    · rw [if_pos h, none]
    · rw [if_neg h]
  | _ => rfl

theorem Command.deeds_within_ne {w : World} {d d' : Nat} (h : d' ≠ d) (action : Action) :
    deeds w d' (.within d action) = [] :=
  if_neg fun heq => h heq.symm

theorem Command.deeds_confirm_ne {w : World} {d d' : Nat} (h : d' ≠ d) (encname : Bytes) :
    deeds w d' (.confirm d encname) = [] :=
  if_neg fun heq => h heq.symm

/-- What a command does to a directory is the action asked for, or lookups and confirmations. -/
theorem Command.deeds_cases {w : World} {d : Nat} {dir : Directory}
    (here : w.directory? d = some dir) (c : Command) :
    (∃ action, c = .within d action ∧ c.deeds w d = [⟨w.opened dir, action⟩]) ∨
      ∀ deed ∈ c.deeds w d, (∃ encname, deed.action = .lookupEncname encname) ∨
        ∃ e, deed.action = .update e := by
  cases c with
  | within d' action =>
    by_cases same : d' = d
    · subst same
      refine .inl ⟨action, rfl, ?_⟩
      rw [Command.deeds, if_pos rfl, here]
    · refine .inr fun deed was => ?_
      rw [Command.deeds_within_ne (fun h => same h.symm)] at was
      exact absurd was List.not_mem_nil
  | confirm d' encname =>
    refine .inr fun deed was => ?_
    by_cases same : d' = d
    · rw [Command.deeds, if_pos same, here] at was
      replace was : deed ∈ Deed.confirming (w.opened dir) encname := was
      rw [Deed.confirming] at was
      split at was
      · rcases List.mem_cons.mp was with rfl | was
        · exact .inr ⟨_, rfl⟩
        · exact .inl ⟨encname, by rw [List.mem_singleton.mp was]⟩
      · exact .inl ⟨encname, by rw [List.mem_singleton.mp was]⟩
    · rw [Command.deeds_confirm_ne (fun h => same h.symm)] at was
      exact absurd was List.not_mem_nil
  | _ => exact .inr fun deed was => absurd was List.not_mem_nil

/-- A request and the world it found. -/
structure Moment where
  before : World
  request : Request

namespace Moment

/-- The world it left. -/
def after (m : Moment) : World := (m.request.answer m.before).2

/-- Whether the directory it is about exists. -/
def heard (m : Moment) : Bool := m.request.about.all fun d => (m.before.directory? d).isSome

/-- What it did to directory `d`, the latest first. -/
def deeds (m : Moment) (d : Nat) : List Deed :=
  if m.heard then m.request.command.deeds m.before d else []

end Moment

/-- What was done to directory `d`, the latest first. -/
def deedsOf (past : List Moment) (d : Nat) : List Deed := past.flatMap (·.deeds d)

/-- The requests of `past`, latest first, led to `w`. -/
inductive Session : List Moment → World → Prop
  /-- There is nothing yet. -/
  | start : Session [] {}
  /-- A manager is made from its settings. -/
  | manager {past : List Moment} {w w' : World} {threads m : Nat} {settings : Settings}
    (session : Session past w) (made : World.addManager threads settings w = .ok m w') :
    Session past w'
  /-- A manager is made whose pools have a given geometry. -/
  | managerOf {past : List Moment} {w w' : World} {buckets locks m : Nat} {settings : Settings}
    (session : Session past w) (made : World.addManagerOf settings buckets locks w = .ok m w') :
    Session past w'
  /-- A request is carried out. -/
  | request {past : List Moment} {w : World} (session : Session past w) (r : Request) :
    Session (⟨w, r⟩ :: past) (r.answer w).2

/-- What a program starts from is a session in which nothing was asked yet. -/
theorem Session.of_start {threads : Nat} {settings : List Settings} {w w' : World}
    (session : Session [] w) (start : World.start threads settings w = .ok () w') :
    Session [] w' := by
  induction settings generalizing w with
  | nil =>
    obtain ⟨-, rfl⟩ := EStateM.Result.ok.inj start
    exact session
  | cons first rest ih =>
    rw [World.start] at start
    cases made : World.addManager threads first w with
    | ok m w₁ =>
      rw [Step.bind_of_ok made] at start
      exact ih (session.manager made) start
    | error fault w₁ =>
      rw [Step.bind_of_error made] at start
      exact absurd start (by rintro ⟨⟩)

/-- The moments of requests carried out in order, after those of `past`. -/
def World.moments (w : World) (past : List Moment) : List Request → List Moment
  | [] => past
  | r :: rest => (r.answer w).2.moments (⟨w, r⟩ :: past) rest

/-- Whatever a program is asked, in whatever order, is a session. -/
theorem Session.answers {past : List Moment} {w : World} (session : Session past w)
    (requests : List Request) : Session (w.moments past requests) (w.answers requests).2 := by
  induction requests generalizing past w with
  | nil => exact session
  | cons r rest ih => exact ih (session.request r)

theorem World.past_subset_moments (w : World) (past : List Moment) (requests : List Request)
    {m : Moment} (was : m ∈ past) : m ∈ w.moments past requests := by
  induction requests generalizing past w with
  | nil => exact was
  | cons r rest ih => exact ih _ _ (List.mem_cons_of_mem _ was)

/-- Each of the requests has its moment. -/
theorem World.mem_moments (w : World) (past : List Moment) (before : List Request) (r : Request)
    (rest : List Request) :
    (⟨(w.answers before).2, r⟩ : Moment) ∈ w.moments past (before ++ r :: rest) := by
  induction before generalizing past w with
  | nil => exact World.past_subset_moments _ _ rest (List.mem_cons_self ..)
  | cons first more ih => exact ih _ _

/-! ## A small session -/

/-- A world with one manager, whose pools have two buckets. -/
def World.small : World := Step.settled (World.addManagerOf {} 2 1) {}

theorem Session.small : Session [] World.small := by
  have made : World.addManagerOf {} 2 1 {} = .ok 0 World.small := rfl
  exact .managerOf .start made

/-- Two entries are inserted into a directory, and a scan confirms the second one. -/
def Request.scan : List Request :=
  [⟨none, .create 0 none⟩, ⟨none, .within 0 (.insert "k" [1] [2])⟩,
    ⟨none, .within 0 (.insert "k" [3] [4])⟩, ⟨none, .within 0 (.beginUpdate .exclusive 7)⟩,
    ⟨none, .within 0 (.update 1)⟩, ⟨none, .within 0 .endUpdate⟩]

/-! ## Two managers on one pool -/

/-- A world with two managers of the same geometry. -/
def World.pair : World := Step.settled (World.addManagerOf {} 2 1) World.small

theorem Session.pair : Session [] World.pair := by
  have made : World.addManagerOf {} 2 1 World.small = .ok 1 World.pair := rfl
  exact .managerOf .small made

/-- Each manager makes its first directory, both on one pool, and three entries of the same names
    are inserted, the second one through the second directory. -/
def Request.mingled : List Request :=
  [⟨none, .create 0 none⟩, ⟨none, .poolOf 0⟩, ⟨none, .create 1 (some 0)⟩,
    ⟨none, .within 0 (.insert "k" [1] [2])⟩, ⟨none, .within 1 (.insert "k" [1] [2])⟩,
    ⟨none, .within 0 (.insert "k" [1] [2])⟩]

end NameCache
