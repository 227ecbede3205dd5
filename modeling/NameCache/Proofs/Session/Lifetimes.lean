/-
  The end of a pool, of a handle and of a manager.

  A pool goes when the last reference to it goes, in whatever order handles, directories and
  managers are given up; and then it has no entry (`Session.lifetimes`).  Whether it goes is what a
  manager that makes separate pools records when one is given back to it, and no other request
  records anything of that (`World.Sound.returns`).  Nor is a directory that stays concerned by what
  else is given up: handing a pool back, dropping a handle and shutting a manager down leave an empty
  place each and a trace, and whoever goes on without them is answered the same (`Beside.answer`).
-/
import NameCache.Proofs.Session.Emptying
import NameCache.Proofs.Session.Overlooking

namespace NameCache

open Step World

variable {w w' u u' : World} {past : List Moment} {x : Lost} {r : Request} {c : Command}

/-! ## One request, with and without -/

theorem Request.overlooks (unnamed : x ∉ r.command.names) :
    Overlooks x r.command.givesBack (r.command.told <$> r.run) := by
  rw [Request.run]
  cases r.about with
  | none => exact Command.overlooks unnamed
  | some d =>
    show Overlooks x _ (r.command.told <$> (Running.directory d >>= fun _ => r.command.run))
    rw [map_bind]
    exact .bind (Command.overlooks_directory d) fun _ => Command.overlooks unnamed

/-- What is told of an answer, and the world it leaves. -/
theorem Request.answer_told {told : Except Refusal Reply}
    (run : (r.command.told <$> r.run) w = result told w') :
    (r.answer w).1.reply.map r.command.told = told ∧ (r.answer w).2 = w' := by
  rw [Request.reply_eq, Request.answer_snd, settled]
  cases ran : r.run w with
  | ok reply w₁ =>
    rw [map_of_ok ran] at run
    cases told with
    | ok told =>
      obtain ⟨same, left⟩ := EStateM.Result.ok.inj run
      exact ⟨congrArg Except.ok same, left⟩
    | error refusal => exact absurd run (by rintro ⟨⟩)
  | error refusal w₁ =>
    rw [map_of_error ran] at run
    cases told with
    | ok told => exact absurd run (by rintro ⟨⟩)
    | error told =>
      obtain ⟨same, left⟩ := EStateM.Result.error.inj run
      exact ⟨congrArg Except.error same, left⟩

/-- Two answers to a command say the same, apart from who else refers to a pool. -/
structure Answer.Alike (c : Command) (answer answer' : Answer) : Prop where
  reply : answer'.reply.map c.told = answer.reply.map c.told
  keys : answer'.keys = answer.keys
  events : answer'.events.filter (!·.ofPool) = answer.events.filter (!·.ofPool)
  directory : answer'.directory = answer.directory

/-- The directory that an answer shows is among what is told. -/
theorem Request.shownDirectory_told (r : Request) (reply : Except Refusal Reply) :
    r.shownDirectory (reply.map r.command.told) = r.shownDirectory reply := by
  obtain ⟨about, c⟩ := r
  cases reply with
  | error refusal => rfl
  | ok reply => cases c <;> cases reply <;> rfl

/-- One world is the other without `x`, and the log may tell otherwise. -/
def World.Beside (x : Lost) (w w' : World) : Prop :=
  x.Known w ∧ ∃ log, w' = { w.lost x with log }

/-- What overlooks the loss of `x` leaves the worlds as they are beside each other. -/
theorem World.Beside.settled {ε α : Type} {back : Bool} {op : EStateM ε World α}
    (beside : Beside x w w') (overlooks : Overlooks x back op) :
    Beside x (Step.settled op w) (Step.settled op w') := by
  obtain ⟨known, log, rfl⟩ := beside
  obtain ⟨r, w₁, gained, gained', known₁, -, -, run, run'⟩ := overlooks w log known
  rw [Step.settled, Step.settled, run, run']
  have still : x.Known { w₁ with log := gained.onto w.log } :=
    known_of_size known₁ (Nat.le_refl _) (Nat.le_refl _)
  cases r with
  | ok a => exact ⟨still, _, rfl⟩
  | error fault => exact ⟨still, _, rfl⟩

/-- A request that does not name `x` is answered the same with and without it. -/
theorem World.Beside.answer (beside : Beside x w w') (unnamed : x ∉ r.command.names) :
    (r.answer w).1.Alike r.command (r.answer w').1 ∧ Beside x (r.answer w).2 (r.answer w').2 := by
  obtain ⟨known, log, rfl⟩ := beside
  obtain ⟨told, w₁, gained, gained', known₁, alike, -, run, run'⟩ :=
    Request.overlooks unnamed w log known
  obtain ⟨reply, after⟩ := Request.answer_told run
  obtain ⟨reply', after'⟩ := Request.answer_told run'
  constructor
  · constructor
    case reply => rw [reply, reply']
    case keys =>
      have keys : (r.answer w).1.keys = gained.keys.reverse := Request.keys_eq (by
        rw [after, List.reverse_reverse]
        rfl)
      have keys' : (r.answer { w.lost x with log }).1.keys = gained'.keys.reverse :=
        Request.keys_eq (by
          rw [after', List.reverse_reverse]
          rfl)
      rw [keys, keys', alike.keys]
    case events =>
      have events : (r.answer w).1.events = gained.events.reverse := Request.events_eq (by
        rw [after, List.reverse_reverse]
        rfl)
      have events' : (r.answer { w.lost x with log }).1.events = gained'.events.reverse :=
        Request.events_eq (by
          rw [after', List.reverse_reverse]
          rfl)
      rw [events, events', List.filter_reverse, List.filter_reverse, alike.events]
    case directory =>
      have shown : ∀ w : World, (r.answer w).1.directory =
          ((r.shownDirectory ((r.answer w).1.reply.map r.command.told)).bind
            (r.answer w).2.directory?).map (r.answer w).2.directoryInfo := by
        intro w
        rw [Request.shownDirectory_told]
        rfl
      rw [shown, shown, reply, reply', after, after']
      rfl
  · rw [after, after']
    exact ⟨known_of_size known₁ (Nat.le_refl _) (Nat.le_refl _), _, rfl⟩

/-! ## What is given up -/

/-- Something is given up in `w`: the world if it is kept, and the world if it is given up. -/
inductive World.GivesUp (w : World) : Lost → World → World → Prop
  /-- A handle is given back to a manager. -/
  | giveBack (about : Option Nat) (h m : Nat) :
    GivesUp w (.handle h) w (Request.answer ⟨about, .giveBack h m⟩ w).2
  /-- A handle is dropped. -/
  | dropHandle (about : Option Nat) (h : Nat) (m : Option Nat) :
    GivesUp w (.handle h) w (Request.answer ⟨about, .dropHandle h m⟩ w).2
  /-- A manager is shut down. -/
  | shutdown (about : Option Nat) (m : Nat) :
    GivesUp w (.manager m) w (Request.answer ⟨about, .shutdown m⟩ w).2
  /-- The pool of a directory that goes is given back to a manager. -/
  | destroy (about : Option Nat) (d m : Nat) (manager : (w.manager? m).isSome = true) :
    GivesUp w .nothing (Request.answer ⟨about, .drop d⟩ w).2
      (Request.answer ⟨about, .destroy d m⟩ w).2

theorem World.Beside.refl (w : World) : Beside .nothing w w := ⟨trivial, w.log, rfl⟩

/-- Giving a pool back is only recorded. -/
theorem World.beside_takeBack (known : x.Known w) (provision : Provision) (p : Nat) :
    Beside x w (Step.settled (takeBack provision p) (w.lost x)) := by
  obtain ⟨r, recorded⟩ := takeBack_recorded provision p
  obtain ⟨gained, -, -, run⟩ := recorded (w.lost x)
  rw [Step.settled, run]
  cases r with
  | ok _ => exact ⟨known, _, rfl⟩
  | error fault => exact ⟨known, _, rfl⟩

/-- So is shutting a manager down, apart from its place. -/
theorem World.shutdown_recorded (m : Nat) (manager : Manager) (w : World) :
    ∃ log, shutdown m manager w = .ok () { w.lost (.manager m) with log } := by
  rw [shutdown, get_bind]
  dsimp only
  by_cases left : (w.tally m).entries ≠ 0
  · rw [if_pos left]
    exact ⟨_, rfl⟩
  · rw [if_neg left]
    exact ⟨_, rfl⟩

theorem Lost.known_of_handle? {h p : Nat} (found : w.handle? h = some p) :
    Known w (.handle h) := by
  obtain ⟨handle, there, -⟩ := handle?_eq_some.mp found
  exact (Array.getElem?_eq_some_iff.mp there).1

/-- Giving a handle back is losing it and having its pool taken back. -/
theorem Command.giveBack_cases (w : World) (h m : Nat) :
    ((w.handle? h = none ∨ w.manager? m = none) ∧ settled (run (.giveBack h m)) w = w) ∨
    ∃ p manager, w.handle? h = some p ∧ w.manager? m = some manager ∧
      settled (run (.giveBack h m)) w =
        settled (takeBack manager.provision p) (w.lost (.handle h)) := by
  rw [run, Running.giveBack, Running.manager, settled_need_bind]
  cases w.manager? m with
  | none => exact .inl ⟨.inr rfl, rfl⟩
  | some manager =>
    show _ ∧ settled (Running.pool h >>= _) w = w ∨ ∃ p manager', _ ∧ _ ∧
      settled (Running.pool h >>= _) w = _
    rw [Running.pool, settled_need_bind]
    cases w.handle? h with
    | none => exact .inl ⟨.inl rfl, rfl⟩
    | some p =>
      exact .inr ⟨p, manager, rfl, rfl,
        settled_perform_done (takeBack manager.provision p) (w.lost (.handle h))⟩

/-- A handle that is given back, or the request is refused. -/
theorem Command.beside_giveBack (w : World) (h m : Nat) :
    settled (run (.giveBack h m)) w = w ∨
      Beside (.handle h) w (settled (run (.giveBack h m)) w) := by
  rcases giveBack_cases w h m with ⟨-, settles⟩ | ⟨p, manager, found, -, settles⟩
  · exact .inl settles
  · rw [settles]
    exact .inr (beside_takeBack (Lost.known_of_handle? found) manager.provision p)

theorem Command.beside_dropHandle (w : World) (h : Nat) (m : Option Nat) :
    settled (run (.dropHandle h m)) w = w ∨
      Beside (.handle h) w (settled (run (.dropHandle h m)) w) := by
  rw [run, Running.dropHandle, settled_checkManager_bind]
  split
  · rw [Running.pool, settled_need_bind]
    cases found : w.handle? h with
    | none => exact .inl rfl
    | some p => exact .inr ⟨Lost.known_of_handle? found, w.log, rfl⟩
  · exact .inl rfl

theorem Command.beside_shutdown (w : World) (m : Nat) :
    settled (run (.shutdown m)) w = w ∨ Beside (.manager m) w (settled (run (.shutdown m)) w) := by
  rw [run, Running.manager, settled_need_bind]
  cases hm : w.manager? m with
  | none => exact .inl rfl
  | some manager =>
    have known : Lost.Known w (.manager m) :=
      (Array.getElem?_eq_some_iff.mp (manager?_eq_some.mp hm)).1
    obtain ⟨log, left⟩ := shutdown_recorded m manager w
    refine .inr ⟨known, log, ?_⟩
    show settled (do
      Running.perform (World.shutdown m manager)
      return .done : Running Reply) w = _
    rw [settled_perform_done, settled_of_ok left]

/-- A directory is destroyed as it is dropped, and then its pool is given back. -/
theorem Command.beside_destroy {d m : Nat} (manager : (w.manager? m).isSome = true) :
    Beside .nothing (settled (run (.drop d)) w) (settled (run (.destroy d m)) w) := by
  rcases destroy_cases w d m with ⟨missing, settles⟩ | ⟨dir, manager, here, -, settles⟩
  · have none : w.directory? d = none := missing.resolve_right (Option.isSome_iff_ne_none.mp manager)
    rw [settles, settled_drop, none]
    exact .refl w
  · rw [settles, settled_drop, here]
    dsimp only
    cases ran : dropDirectory d dir w with
    | ok _ w₁ =>
      rw [settled_of_ok ran, settled_bind_of_ok ran]
      exact beside_takeBack (x := .nothing) trivial manager.provision dir.pool
    | error fault w₁ =>
      rw [settled_of_error ran, settled_bind_of_error ran]
      exact .refl w₁

/-- With nothing lost at all if it is refused, the world is beside the one where it is kept. -/
theorem World.GivesUp.beside (gives : w.GivesUp x u u') :
    ∃ y, (y = .nothing ∨ y = x) ∧ Beside y u u' := by
  have asked : ∀ about c, settled c.run w = w ∨ Beside x w (settled c.run w) →
      ∃ y, (y = .nothing ∨ y = x) ∧ Beside y w (Request.answer ⟨about, c⟩ w).2 := by
    intro about c run
    rw [Request.after_eq]
    split
    · rcases run with same | beside
      · exact ⟨.nothing, .inl rfl, same.symm ▸ .refl w⟩
      · exact ⟨x, .inr rfl, beside⟩
    · exact ⟨.nothing, .inl rfl, .refl w⟩
  cases gives with
  | giveBack about h m => exact asked about _ (Command.beside_giveBack w h m)
  | dropHandle about h m => exact asked about _ (Command.beside_dropHandle w h m)
  | shutdown about m => exact asked about _ (Command.beside_shutdown w m)
  | destroy about d m manager =>
    refine ⟨.nothing, .inl rfl, ?_⟩
    rw [Request.after_eq, Request.after_eq]
    show Beside _ (if Moment.heard ⟨w, ⟨about, .drop d⟩⟩ then _ else w)
      (if Moment.heard ⟨w, ⟨about, .drop d⟩⟩ then _ else w)
    split
    · exact Command.beside_destroy manager
    · exact .refl w

/-! ## Going on -/

/-- The same was asked, from `v` and from `v'`, and nothing of it named `x`. -/
inductive World.Apace (x : Lost) (v v' : World) : World → World → Prop
  | start : Apace x v v' v v'
  | manager {u u' : World} (apace : Apace x v v' u u') (threads : Nat) (settings : Settings) :
    Apace x v v' (settled (addManager threads settings) u) (settled (addManager threads settings) u')
  | managerOf {u u' : World} (apace : Apace x v v' u u') (settings : Settings)
    (buckets locks : Nat) :
    Apace x v v' (settled (addManagerOf settings buckets locks) u)
      (settled (addManagerOf settings buckets locks) u')
  | request {u u' : World} (apace : Apace x v v' u u') (r : Request)
    (unnamed : x ∉ r.command.names) : Apace x v v' (r.answer u).2 (r.answer u').2

/-- Worlds that were beside each other stay so. -/
theorem World.Apace.beside {v v' : World} {y : Lost} (apace : Apace x v v' u u')
    (lost : y = .nothing ∨ y = x) (beside : Beside y v v') : Beside y u u' := by
  induction apace with
  | start => exact beside
  | manager _ threads settings ih =>
    have overlooks : Overlooks y false (addManager threads settings) :=
      overlooks_addManager threads settings
    exact ih.settled overlooks
  | managerOf _ settings buckets locks ih =>
    have overlooks : Overlooks y false (addManagerOf settings buckets locks) :=
      overlooks_addManagerOf settings buckets locks
    exact ih.settled overlooks
  | request _ r unnamed ih =>
    rcases lost with rfl | rfl
    · exact (ih.answer r.command.nothing_not_mem_names).2
    · exact (ih.answer unnamed).2

/-! ## What is recorded of a pool that is given back -/

/-- Whether a provision makes a new pool for everyone who asks. -/
def Provision.separates : Provision → Bool
  | .shared _ => false
  | .separate _ _ => true

/-- Whether manager `m` exists and makes separate pools. -/
def World.separates (w : World) (m : Nat) : Bool := (w.manager? m).any (·.provision.separates)

/-- The pool that a command gives back to a manager that makes separate ones. -/
def Command.returns (w : World) : Command → Option Nat
  | .giveBack h m => if w.separates m then w.handle? h else none
  | .destroy d m => if w.separates m then (w.directory? d).map (·.pool) else none
  | _ => none

/-- The pool that a request gives back, unless the directory it is about is missing. -/
def Request.returns (r : Request) (w : World) : Option Nat :=
  if (⟨w, r⟩ : Moment).heard then r.command.returns w else none

/-- What is recorded of pool `p` if it is given back and `w` is what that leaves. -/
def World.returnOf (w : World) (p : Nat) : Event :=
  if w.poolAlive p then .poolStillReferenced else .freedPool

/-- On top of `base` a world records the return of a pool, if there was one, and nothing else of
    that kind. -/
def World.Records (base after : World) (returned : Option Nat) : Prop :=
  ∃ more, after.log.events = more ++ base.log.events ∧
    more.filter Event.ofPool = returned.toList.map after.returnOf

/-- What nothing of is given back in records nothing of that. -/
theorem World.Overlooks.gained {ε α : Type} {op : EStateM ε World α}
    (overlooks : Overlooks .nothing false op) (w : World) :
    ∃ gained : Log, (settled op w).log = gained.onto w.log ∧
      ∀ event ∈ gained.events, event.ofPool = false := by
  obtain ⟨r, w₁, gained, -, -, -, quiet, run, -⟩ := overlooks w w.log trivial
  refine ⟨gained, ?_, quiet rfl⟩
  rw [settled, run]
  cases r <;> rfl

theorem World.Records.refl (w : World) : w.Records w none := ⟨[], rfl, rfl⟩

theorem World.Records.of_gained {gained : Log} (left : w'.log = gained.onto w.log)
    (quiet : ∀ event ∈ gained.events, event.ofPool = false) : w.Records w' none := by
  refine ⟨gained.events, congrArg Log.events left, List.filter_eq_nil_iff.mpr fun event h => ?_⟩
  rw [quiet event h]
  exact Bool.false_ne_true

/-- A pool is torn down if nothing refers to it when it is taken back. -/
theorem World.Records.takeBack (records : w.Records w' none) (sound : w'.Sound)
    (provision : Provision) (p : Nat) :
    w.Records (settled (takeBack provision p) w')
      (if provision.separates then some p else none) := by
  obtain ⟨before, recorded, none⟩ := records
  replace none : before.filter Event.ofPool = [] := none
  rw [sound.takeBack_settled]
  refine ⟨(w'.takeBackTrace p provision).reverse ++ before, ?_, ?_⟩
  · rw [List.append_assoc, ← recorded]
    rfl
  · rw [List.filter_append, none, List.append_nil]
    cases provision with
    | shared q => rfl
    | separate buckets locks =>
      show List.filter Event.ofPool (takeBackTrace w' p (.separate buckets locks)).reverse =
        [w'.returnOf p]
      rw [takeBackTrace, returnOf, poolAlive]
      by_cases gone : w'.references p = 0
      · rw [if_pos gone, gone]
        rfl
      · rw [if_neg gone, if_pos (bne_iff_ne.mpr gone)]
        rfl

/-- A handle that is given back was one of the references until then. -/
theorem Command.records_giveBack (sound : w.Sound) (h m : Nat) :
    w.Records (settled (run (.giveBack h m)) w) (returns w (.giveBack h m)) := by
  rw [returns, separates]
  rcases giveBack_cases w h m with ⟨missing, settles⟩ | ⟨p, manager, found, hm, settles⟩
  · rw [settles]
    rcases missing with none | none
    · rw [none, ite_self]
      exact .refl w
    · rw [none]
      exact .refl w
  · have dropped : (w.lost (.handle h)).Sound := sound.quiet (.drop w h)
    have before : w.Records (w.lost (.handle h)) none := ⟨[], rfl, rfl⟩
    rw [settles, found, hm]
    exact before.takeBack dropped manager.provision p

/-- The entries of a directory have gone before its pool is given back. -/
theorem Command.records_destroy (sound : w.Sound) (d m : Nat) :
    w.Records (settled (run (.destroy d m)) w) (returns w (.destroy d m)) := by
  rw [returns, separates]
  rcases destroy_cases w d m with ⟨missing, settles⟩ | ⟨dir, manager, here, hm, settles⟩
  · rw [settles]
    rcases missing with none | none
    · rw [none, Option.map_none, ite_self]
      exact .refl w
    · rw [none]
      exact .refl w
  · obtain ⟨s, n, ran, opened, leads, empty, -⟩ := dropDirectory_settled sound here
    have overlooks : Overlooks .nothing false (dropDirectory d dir) :=
      overlooks_dropDirectory d dir
    obtain ⟨gained, left, quiet⟩ := overlooks.gained w
    rw [settled_of_ok ran] at left
    have before : w.Records (w.without d s) none := .of_gained left quiet
    rw [settles, settled_bind_of_ok ran, here, hm]
    exact before.takeBack (sound.without here opened leads empty) manager.provision dir.pool

theorem Command.returns_eq_none (keeps : c.givesBack = false) : c.returns w = none := by
  cases c with
  | giveBack h m => exact absurd keeps.symm Bool.false_ne_true
  | destroy d m => exact absurd keeps.symm Bool.false_ne_true
  | _ => rfl

theorem Command.records (sound : w.Sound) (c : Command) :
    w.Records (settled c.run w) (c.returns w) := by
  cases back : c.givesBack with
  | false =>
    have overlooks := Command.overlooks c.nothing_not_mem_names
    rw [back] at overlooks
    obtain ⟨gained, left, quiet⟩ := overlooks.gained w
    have same : settled (c.told <$> c.run) w = settled c.run w := settled_bind_pure c.run c.told w
    rw [same] at left
    rw [returns_eq_none back]
    exact .of_gained left quiet
  | true =>
    cases c with
    | giveBack h m => exact Command.records_giveBack sound h m
    | destroy d m => exact Command.records_destroy sound d m
    | _ => exact absurd back Bool.false_ne_true

/-- Of the events of giving pools back, a request records the one that its return is, and no
    other. -/
theorem World.Sound.returns (sound : w.Sound) (r : Request) :
    (r.answer w).1.events.filter Event.ofPool =
      (r.returns w).toList.map (r.answer w).2.returnOf := by
  have records : w.Records (r.answer w).2 (r.returns w) := by
    rw [r.after_eq, Request.returns]
    split
    · exact Command.records sound r.command
    · exact .refl w
  obtain ⟨more, left, recorded⟩ := records
  have events : (r.answer w).1.events = more.reverse := Request.events_eq (by
    rw [List.reverse_reverse, left])
  rw [events, List.filter_reverse, recorded]
  cases r.returns w <;> rfl

/-- Whatever is asked, no pool is found to have entries when it is torn down. -/
theorem World.Sound.tears_none (sound : w.Sound) (r : Request) (n : Nat) :
    .freeingPoolWithEntries n ∉ (r.answer w).1.events := by
  intro torn
  have recorded : .freeingPoolWithEntries n ∈ (r.answer w).1.events.filter Event.ofPool :=
    List.mem_filter.mpr ⟨torn, rfl⟩
  rw [sound.returns] at recorded
  obtain ⟨p, -, same⟩ := List.mem_map.mp recorded
  unfold returnOf at same
  split at same
  · exact absurd same (by simp)
  · exact absurd same (by simp)

/-! ## The whole of it -/

/-- Two worlds are the same but for `x` and the log. -/
structure World.SameBut (x : Lost) (w w' : World) : Prop where
  directories : w'.directories = w.directories
  entries : w'.entries = w.entries
  pools : w'.pools = w.pools
  tallies : w'.tallies = w.tallies
  held : w'.held = w.held
  manager? : ∀ m, x ≠ .manager m → w'.manager? m = w.manager? m
  handle? : ∀ h, x ≠ .handle h → w'.handle? h = w.handle? h

theorem World.Beside.sameBut {y : Lost} (beside : Beside y w w') (lost : y = .nothing ∨ y = x) :
    w.SameBut x w' := by
  obtain ⟨-, log, rfl⟩ := beside
  constructor
  case manager? =>
    intro m ne
    refine manager?_lost ?_ w
    rcases lost with rfl | rfl
    · simp
    · exact ne
  case handle? =>
    intro h ne
    refine handle?_lost ?_ w
    rcases lost with rfl | rfl
    · simp
    · exact ne
  all_goals rfl

/-- In every session a pool is alive as long as a handle on it is held, a directory uses it or a
    manager shares it; a request after which it is alive no longer leaves both of its tables empty,
    and no pool is ever found to have entries when it is torn down.  A pool that is given back to a
    manager that makes separate ones is recorded as torn down if nothing refers to it any more, as
    still referred to if something does, and no other request records either.  And if a handle is
    given back or dropped, a manager is shut down, or the pool of a directory that goes is given
    back, then whatever is asked later without naming it, the world is the same but for it as if it
    had been kept, and every answer is the same, apart from who else refers to a pool. -/
theorem Session.lifetimes (session : Session past w) :
    (∀ p, w.poolAlive p = true ↔ w.Refers p) ∧
    (∀ (r : Request) (p : Nat), w.poolAlive p = true → (r.answer w).2.poolAlive p = false →
      (r.answer w).2.Vacant p) ∧
    (∀ (r : Request) (n : Nat), .freeingPoolWithEntries n ∉ (r.answer w).1.events) ∧
    (∀ r : Request, (r.answer w).1.events.filter Event.ofPool = (r.returns w).toList.map fun p =>
      if (r.answer w).2.poolAlive p then .poolStillReferenced else .freedPool) ∧
    ∀ x v v', w.GivesUp x v v' → ∀ u u', Apace x v v' u u' →
      u.SameBut x u' ∧
      ∀ r : Request, x ∉ r.command.names → (r.answer u).1.Alike r.command (r.answer u').1 := by
  refine ⟨fun p => poolAlive_iff, fun r p _ gone => ?_, session.sound.tears_none,
    session.sound.returns, fun x v v' gives u u' apace => ?_⟩
  · refine (session.request r).sound.unreferenced ?_
    rw [poolAlive, bne_eq_false_iff_eq] at gone
    exact gone
  · obtain ⟨y, lost, base⟩ := gives.beside
    have beside := apace.beside lost base
    refine ⟨beside.sameBut lost, fun r unnamed => ?_⟩
    rcases lost with rfl | rfl
    · exact (beside.answer r.command.nothing_not_mem_names).1
    · exact (beside.answer unnamed).1

/-- A world with one manager that shares a pool and one that does not. -/
def World.mixed : World := settled (addManagerOf { shared := false } 2 1) World.small

theorem Session.mixed : Session [] World.mixed := by
  have made : addManagerOf { shared := false } 2 1 World.small = .ok 1 World.mixed := rfl
  exact .managerOf .small made

/-- A directory of the second manager gets an entry, and the only handle on its pool is given back
    to the first manager, which does not take it. -/
def Request.deserted : List Request :=
  [⟨none, .create 1 none⟩, ⟨none, .within 0 (.insert "k" [1] [2])⟩, ⟨none, .poolOf 0⟩,
    ⟨none, .giveBack 0 0⟩]

/-- That directory is the last to use the pool.  It is answered the same if its manager is shut
    down; and when it is destroyed, the pool is torn down, without entries. -/
theorem Session.lifetimes_of_last : ∃ past w, Session past w ∧
    w.poolAlive 1 = true ∧ (w.pool 1).length = 1 ∧
    (Request.answer ⟨none, .destroy 0 1⟩ w).2.poolAlive 1 = false ∧
    (Request.answer ⟨none, .destroy 0 1⟩ w).2.Vacant 1 ∧
    (Request.answer ⟨none, .destroy 0 1⟩ w).1.events.filter Event.ofPool = [.freedPool] ∧
    .freeingPoolWithEntries 1 ∉ (Request.answer ⟨none, .destroy 0 1⟩ w).1.events ∧
    ((Request.answer ⟨none, .shutdown 1⟩ w).2.manager? 1).isNone = true ∧
    (Request.answer ⟨none, .within 0 (.lookupName [1])⟩ w).1.Alike (.within 0 (.lookupName [1]))
      (Request.answer ⟨none, .within 0 (.lookupName [1])⟩
        (Request.answer ⟨none, .shutdown 1⟩ w).2).1 := by
  have session := Session.mixed.answers Request.deserted
  obtain ⟨-, ends, tears, returns, apart⟩ := Session.lifetimes session
  have alive : (World.mixed.answers Request.deserted).2.poolAlive 1 = true := by decide +kernel
  have gone : (Request.answer ⟨none, .destroy 0 1⟩
      (World.mixed.answers Request.deserted).2).2.poolAlive 1 = false := by decide +kernel
  have freed := returns ⟨none, .destroy 0 1⟩
  rw [show Request.returns ⟨none, .destroy 0 1⟩ (World.mixed.answers Request.deserted).2 = some 1 by
    decide +kernel, Option.toList_some, List.map_singleton, gone] at freed
  have alike := (apart _ _ _ (.shutdown none 1) _ _ .start).2
    ⟨none, .within 0 (.lookupName [1])⟩ (by decide)
  exact ⟨_, _, session, alive, by decide +kernel, gone, ends _ 1 alive gone, freed,
    tears _ 1, by decide +kernel, alike⟩

end NameCache
