/-
  A directory alone.

  What can be seen of a directory is told by its number and by what is done through it, if the
  entries that it returns and that it is given are numbered in the order of their insertion into it
  (`Course.sights_eq`).  Neither the geometry of its pool nor anybody else has a part in that.  So
  it is what would be seen of the directory alone on a pool of one bucket and one lock
  (`Course.sights_alone`).

  The ledger of the directory in its own terms is a function of what was done (`Ledger.after`), and
  the crux is that each deed takes the mirrored ledger from one of its values to the next
  (`Course.mirrors_after`).  Only a lookup goes through a table that others may use as well, and for
  that no other directory on the pool may have the same number (`Deed.Apart`).
-/
import NameCache.Proofs.Directory.Finding
import NameCache.Proofs.Directory.Mirroring

namespace NameCache

/-- What can be seen of a directory, in its own terms. -/
structure View where
  generation : UInt64
  status : Status
  activeCount : Nat
  staleCount : Nat
  length : Nat
  /-- The active entries, the last confirmed one first. -/
  active : List Nat
  /-- Everything inserted through it, without links, in the order of the insertions. -/
  entries : List Entry
  deriving DecidableEq, Repr

/-- What is seen of an action, in the terms of the directory. -/
structure Sight where
  /-- The answer, unless it was refused. -/
  outcome : Option Outcome
  /-- The key events, the first one first. -/
  keys : List KeyEvent
  /-- What it left. -/
  view : View
  deriving DecidableEq, Repr

/-- What can be seen of an opened directory with the given insertions. -/
def Opened.view (s : Opened) (own : List Nat) : View where
  generation := s.dir.generation
  status := s.dir.status
  activeCount := s.dir.activeCount
  staleCount := s.dir.staleCount
  length := s.dir.length
  active := s.dir.activeEntries.map own.idxOf
  entries := own.map fun e => (s.entries.entry e).bare

namespace Deed

/-- The entries inserted, in the order of their insertion. -/
def own (deeds : List Deed) : List Nat := (insertions deeds).reverse

/-- What was done, the latest first, each action in the terms of its time. -/
def actions : List Deed → List Action
  | [] => []
  | deed :: deeds => deed.action.inTerms (own deeds) :: actions deeds

/-- What is seen of a deed that comes after others. -/
def sight (deed : Deed) (deeds : List Deed) : Sight where
  outcome := deed.outcome.map (Outcome.inTerms (own (deed :: deeds)))
  keys := (deed.after.log.since deed.before.log).1
  view := deed.after.view (own (deed :: deeds))

/-- What is seen of deeds, the latest first. -/
def sights : List Deed → List Sight
  | [] => []
  | deed :: deeds => deed.sight deeds :: sights deeds

end Deed

/-! ## Ledgers in their own terms -/

namespace Ledger

/-- The ledger of a directory that was just made. -/
def fresh (id : UInt64) : Ledger :=
  { id, generation := 0, updating := false, active := [], stale := [], entries := #[], tally := {},
    keys := [] }

/-- The latest live entry with a name. -/
def latest (l : Ledger) (kind : NameKind) (text : Bytes) : Option Nat :=
  (List.range l.entries.size).reverse.find? fun e =>
    (l.entries.entry e).live && (l.entries.entry e).text kind == text

/-- The answer to an accepted action. -/
def reply (l : Ledger) : Action → Outcome
  | .insert _ _ _ => .made l.entries.size
  | .update _ => .done
  | .lookupName name => .found (l.latest .plain name)
  | .lookupEncname encname => .found (l.latest .encrypted encname)
  | .beginUpdate _ g => .began (l.beginUpdate .swap g).generation
  | .endUpdate => .freed (if l.updating then l.stale.length else 0)
  | .abortUpdate => .done
  | .purge => .freed (l.stale.length + l.active.length)

/-- The ledger after an action. -/
def next (l : Ledger) (action : Action) : Ledger :=
  if l.Accepts action then l.act .swap action (l.reply action) else l

/-- What can be seen of a ledger that has no other entries than the directory's own. -/
def view (l : Ledger) : View where
  generation := l.generation
  status := if l.updating then .updating else if l.stale = [] then .clean else .inconsistent
  activeCount := l.active.length
  staleCount := l.stale.length
  length := l.active.length + l.stale.length
  active := l.active
  entries := l.entries.toList

/-- What is seen of an action. -/
def sight (l : Ledger) (action : Action) : Sight where
  outcome := if l.Accepts action then some (l.reply action) else none
  keys := if l.Accepts action then l.keyEvents action else []
  view := (l.next action).view

theorem keys_sight {l : Ledger} {action : Action} (accepts : l.Accepts action) :
    (l.sight action).keys = l.keyEvents action := if_pos accepts

/-- The ledger after some actions, the latest first. -/
def after (l : Ledger) : List Action → Ledger
  | [] => l
  | action :: actions => (l.after actions).next action

/-- What is seen of some actions, the latest first. -/
def sights (l : Ledger) : List Action → List Sight
  | [] => []
  | action :: actions => (l.after actions).sight action :: l.sights actions

end Ledger

variable {s s' : Opened} {deed : Deed} {deeds : List Deed} {others : Nat → Prop}
  {image : Ledger} {action : Action} {e : Nat}

/-! ## What the ledger shows -/

/-- A mirrored directory is seen as its ledger shows it. -/
theorem Ledger.Mirrors.view_eq {own : List Nat} (mirrors : Ledger.Mirrors own s.ledger image)
    (nodup : own.Nodup) (standing : Standing s.dir.lists s.entries) :
    s.view own = image.view := by
  have active : image.active = s.dir.activeEntries.map own.idxOf := mirrors.active
  have stale : image.stale = s.dir.staleEntries.map own.idxOf := mirrors.stale
  have updating : image.updating = s.dir.updating := mirrors.updating
  have entries : (own.map fun e => (s.entries.entry e).bare) = image.entries.toList := by
    refine List.ext_getElem (by simp [mirrors.entries.size]) fun i known known' => ?_
    rw [List.length_map] at known
    have bare : s.ledger.entries.entry own[i] = _ := Entries.entry_map_bare
    have same := mirrors.entries.entry _ (List.getElem_mem known)
    rw [nodup.idxOf_getElem, bare] at same
    rw [List.getElem_map, ← same, Entries.entry, Array.getElem_toList,
      Array.getElem?_eq_getElem (by simpa using known')]
    rfl
  rw [Opened.view, Ledger.view, Directory.status, standing.activeCount_eq, standing.staleCount_eq,
    standing.length_eq, entries, active, stale, updating, mirrors.generation, List.length_map,
    List.length_map]
  simp only [List.length_eq_zero_iff, List.map_eq_nil_iff]
  rfl

namespace Deed

theorem inserted_of_made (made : deed.outcome = some (.made e)) : deed.inserted = some e := by
  rw [inserted, made]

theorem own_of_inserted (inserted : deed.inserted = some e) :
    own (deed :: deeds) = own deeds ++ [e] := by
  rw [own, insertions, List.filterMap_cons_some inserted, List.reverse_cons]
  rfl

theorem own_of_unmade (unmade : deed.inserted = none) : own (deed :: deeds) = own deeds := by
  rw [own, insertions, List.filterMap_cons_none unmade]
  rfl

end Deed

namespace Opened.Course

theorem own_nodup (course : Course deeds s) : (Deed.own deeds).Nodup := by
  refine List.pairwise_reverse.mpr (course.insertions_sorted.imp ?_)
  exact fun gt same => Nat.lt_irrefl _ (same ▸ gt)

/-- The latest live entry with a name is the latest one of the ledger. -/
theorem latest (course : Course deeds s) (mirrors : Ledger.Mirrors (Deed.own deeds) s.ledger image)
    (kind : NameKind) (text : Bytes) :
    ((Deed.insertions deeds).find? fun e =>
        (s.entries.entry e).live && (s.entries.entry e).text kind == text).map
      (Deed.own deeds).idxOf = image.latest kind text := by
  have numbers : (List.range image.entries.size).reverse =
      (Deed.insertions deeds).map (Deed.own deeds).idxOf := by
    rw [mirrors.entries.size, ← map_idxOf_self course.own_nodup, ← List.map_reverse, Deed.own,
      List.reverse_reverse]
  rw [Ledger.latest, numbers, List.find?_map]
  congr 1
  rw [← List.head?_filter, ← List.head?_filter]
  refine congrArg List.head? (List.filter_congr fun e he => ?_)
  have same := mirrors.entries.entry e (List.mem_reverse.mpr he)
  have bare : s.ledger.entries.entry e = (s.entries.entry e).bare := Entries.entry_map_bare
  rw [Function.comp_apply, same, bare, Entry.live_bare]
  cases kind <;> rfl

end Opened.Course

/-! ## What a deed does -/

namespace Deed

/-- No other entry on the pool has the number of the directory. -/
def Apart (deed : Deed) : Prop :=
  ∃ others, deed.before.Sound others ∧
    ∀ e, others e → (deed.before.entries.entry e).dir ≠ deed.before.dir.id

/-- A lookup by plain name that is accepted answers with the latest live insertion. -/
theorem outcome_lookupName (course : Opened.Course deeds s) {name : Bytes}
    (apart : Apart ⟨s, .lookupName name⟩) (accepts : s.ledger.Accepts (.lookupName name)) :
    outcome ⟨s, .lookupName name⟩ = some (.found ((insertions deeds).find? fun e =>
      (s.entries.entry e).live && (s.entries.entry e).text .plain == name)) := by
  obtain ⟨others, sound, strange⟩ := apart
  have run := Opened.lookupName_run sound.standing accepts.1 accepts.2 name
  rw [Opened.findName_insertions course sound strange accepts.2] at run
  have ran : (Action.lookupName name).run .swap s = _ := Step.bind_of_ok run
  rw [outcome, ran]
  rfl

/-- So does one by encrypted name. -/
theorem outcome_lookupEncname (course : Opened.Course deeds s) {encname : Bytes}
    (apart : Apart ⟨s, .lookupEncname encname⟩) :
    outcome ⟨s, .lookupEncname encname⟩ = some (.found ((insertions deeds).find? fun e =>
      (s.entries.entry e).live && (s.entries.entry e).text .encrypted == encname)) := by
  obtain ⟨others, sound, strange⟩ := apart
  have run := Opened.lookupEncname_run encname s
  rw [Opened.findEncname_insertions course sound strange] at run
  have ran : (Action.lookupEncname encname).run .swap s = _ := Step.bind_of_ok run
  rw [outcome, ran]
  rfl

/-- A deed answers as the ledger does. -/
theorem outcome_eq (course : Opened.Course deeds s) (apart : Apart ⟨s, action⟩)
    (mirrors : Ledger.Mirrors (own deeds) s.ledger image) :
    (outcome ⟨s, action⟩).map (Outcome.inTerms (own (⟨s, action⟩ :: deeds))) =
      (image.sight (action.inTerms (own deeds))).outcome := by
  obtain ⟨others, sound⟩ := course.sound
  show _ = if image.Accepts (action.inTerms (own deeds)) then _ else _
  rcases cases ⟨s, action⟩ sound with ⟨refuses, refused, -⟩ | ⟨accepts, outcome, answer, answers, -⟩
  · rw [if_neg fun h => refuses ((mirrors.accepts_iff _).mp h), refused]
    rfl
  · rw [if_pos ((mirrors.accepts_iff _).mpr accepts)]
    cases action with
    | insert label name encname =>
      obtain rfl : outcome = .made s.ledger.entries.size := answers
      rw [answer, own_of_inserted (inserted_of_made answer)]
      exact congrArg (fun e => some (Outcome.made e)) mirrors.next
    | lookupName name =>
      have unmade := inserted_eq_none ⟨s, .lookupName name⟩ sound (by simp)
      rw [outcome_lookupName course apart accepts, own_of_unmade unmade]
      exact congrArg (fun e => some (Outcome.found e)) (course.latest mirrors .plain name)
    | lookupEncname encname =>
      have unmade := inserted_eq_none ⟨s, .lookupEncname encname⟩ sound (by simp)
      rw [outcome_lookupEncname course apart, own_of_unmade unmade]
      exact congrArg (fun e => some (Outcome.found e)) (course.latest mirrors .encrypted encname)
    | update e => rw [answer, show outcome = _ from answers]; rfl
    | beginUpdate hold g =>
      rw [answer, show outcome = _ from answers]
      exact congrArg (fun g => some (Outcome.began g)) (mirrors.beginUpdate .swap g).generation.symm
    | endUpdate =>
      rw [answer, show outcome = _ from answers]
      show some (Outcome.freed (if s.ledger.updating then s.ledger.stale.length else 0)) =
        some (Outcome.freed (if image.updating then image.stale.length else 0))
      rw [mirrors.updating, mirrors.stale, List.length_map]
    | abortUpdate => rw [answer, show outcome = _ from answers]; rfl
    | purge =>
      rw [answer, show outcome = _ from answers]
      show some (Outcome.freed (s.ledger.stale.length + s.ledger.active.length)) =
        some (Outcome.freed (image.stale.length + image.active.length))
      rw [mirrors.stale, mirrors.active, List.length_map, List.length_map]

/-- A deed takes the ledger to the next one. -/
theorem mirrors_after (sound : s.Sound others)
    (mirrors : Ledger.Mirrors (own deeds) s.ledger image) :
    Ledger.Mirrors (own (⟨s, action⟩ :: deeds)) (after ⟨s, action⟩).ledger
      (image.next (action.inTerms (own deeds))) := by
  rw [Ledger.next]
  rcases cases ⟨s, action⟩ sound with
    ⟨refuses, refused, same⟩ | ⟨accepts, outcome, answer, answers, ledger, -⟩
  · have unmade : inserted ⟨s, action⟩ = none := by rw [inserted, refused]
    rw [if_neg fun h => refuses ((mirrors.accepts_iff _).mp h), own_of_unmade unmade, same]
    exact mirrors
  · rw [if_pos ((mirrors.accepts_iff _).mpr accepts), ledger]
    by_cases inserts : ∃ label name encname, action = .insert label name encname
    · obtain ⟨label, name, encname, rfl⟩ := inserts
      obtain rfl : outcome = .made s.ledger.entries.size := answers
      rw [own_of_inserted (inserted_of_made answer)]
      exact mirrors.insert .swap label name encname
    · have other : ∀ label name encname, action ≠ .insert label name encname :=
        fun label name encname h => inserts ⟨label, name, encname, h⟩
      rw [own_of_unmade (inserted_eq_none ⟨s, action⟩ sound other)]
      exact mirrors.act accepts other .swap

/-- The same key events come of it. -/
theorem keys_eq (sound : s.Sound others) (mirrors : Ledger.Mirrors (own deeds) s.ledger image) :
    ((after ⟨s, action⟩).log.since s.log).1 = (image.sight (action.inTerms (own deeds))).keys := by
  rcases cases ⟨s, action⟩ sound with ⟨refuses, -, same⟩ | ⟨accepts, outcome, -, -, ledger, -⟩
  · show _ = if image.Accepts (action.inTerms (own deeds)) then _ else _
    rw [if_neg fun h => refuses ((mirrors.accepts_iff _).mp h), same]
    exact Log.keys_since rfl
  · rw [Ledger.keys_sight ((mirrors.accepts_iff _).mpr accepts), mirrors.keyEvents]
    exact Log.keys_since ((congrArg Ledger.keys ledger).trans
      (Ledger.keys_act sound.ledger.toTidy))

/-- What is seen of a deed is what the ledger shows. -/
theorem sight_eq (course : Opened.Course deeds s) (apart : Apart ⟨s, action⟩)
    (mirrors : Ledger.Mirrors (own deeds) s.ledger image) :
    sight ⟨s, action⟩ deeds = image.sight (action.inTerms (own deeds)) := by
  obtain ⟨others, sound⟩ := course.sound
  have after := course.act action
  obtain ⟨others', sound'⟩ := after.sound
  have ledger : Ledger.Mirrors _ (Deed.after ⟨s, action⟩).ledger _ := mirrors_after sound mirrors
  have view := ledger.view_eq after.own_nodup sound'.standing
  rw [sight, outcome_eq course apart mirrors, keys_eq sound mirrors, view]
  rfl

end Deed

/-! ## What the course of a directory shows -/

namespace Opened.Course

/-- The directory's ledger in its own terms is told by its number and by what was done. -/
theorem mirrors_after (course : Course deeds s) :
    Ledger.Mirrors (Deed.own deeds) s.ledger
      ((Ledger.fresh s.dir.id).after (Deed.actions deeds)) := by
  induction course with
  | @fresh s _ _ generation idle active stale =>
    have none : ∀ e, ¬ s.ledger.Holds e := by
      rintro e (h | h)
      · replace h : e ∈ s.dir.activeEntries := h
        exact absurd (active ▸ h) List.not_mem_nil
      · replace h : e ∈ s.dir.staleEntries := h
        exact absurd (stale ▸ h) List.not_mem_nil
    exact
      { id := rfl
        generation := generation.symm
        updating := idle.symm
        active := by
          show [] = s.dir.activeEntries.map _
          rw [active]
          rfl
        stale := by
          show [] = s.dir.staleEntries.map _
          rw [stale]
          rfl
        entries := ⟨rfl, fun _ h => absurd h List.not_mem_nil, fun _ h => absurd h List.not_mem_nil⟩
        held := fun e h => absurd h (none e) }
  | @act deeds s action course ih =>
    obtain ⟨others, sound⟩ := course.sound
    rw [(Deed.leads ⟨s, action⟩ sound).2.id]
    exact Deed.mirrors_after sound ih
  | @rest deeds s s' _ course rests _ ih =>
    have dir := rests.dir.symm
    -- whatever was inserted is held or destroyed, and others change neither
    have same : ∀ e ∈ Deed.own deeds, e < s'.entries.size ∧
        s'.ledger.entries.entry e = s.ledger.entries.entry e := by
      intro e he
      obtain ⟨known, fate⟩ := course.fate (List.mem_reverse.mp he)
      have entry : s'.entries.entry e = s.entries.entry e :=
        fate.elim (rests.held e) (rests.gone e known)
      refine ⟨Nat.lt_of_lt_of_le known rests.grows, ?_⟩
      rw [Opened.ledger, Opened.ledger, Entries.entry_map_bare, Entries.entry_map_bare, entry]
    rw [← dir]
    exact
      { id := ih.id.trans (congrArg (·.id) dir)
        generation := ih.generation.trans (congrArg (·.generation) dir)
        updating := ih.updating.trans (congrArg (·.updating) dir)
        active := ih.active.trans (congrArg (fun dir : Directory => dir.activeEntries.map _) dir)
        stale := ih.stale.trans (congrArg (fun dir : Directory => dir.staleEntries.map _) dir)
        entries :=
          { size := ih.entries.size
            bound := fun e he => by
              rw [Opened.ledger, Array.size_map]
              exact (same e he).1
            entry := fun e he => (ih.entries.entry e he).trans (same e he).2.symm }
        held := fun e he => ih.held e (by
          show s.dir.Holds e
          rw [dir]
          exact he) }

/-- What is seen of a directory is told by its number and by what was done. -/
theorem sights_eq (course : Course deeds s) (apart : ∀ deed ∈ deeds, deed.Apart) :
    Deed.sights deeds = (Ledger.fresh s.dir.id).sights (Deed.actions deeds) := by
  induction course with
  | fresh => rfl
  | @act deeds s action course ih =>
    obtain ⟨this, earlier⟩ := List.forall_mem_cons.mp apart
    obtain ⟨others, sound⟩ := course.sound
    rw [(Deed.leads ⟨s, action⟩ sound).2.id, Deed.sights, ih earlier,
      Deed.sight_eq course this course.mirrors_after]
    rfl
  | rest _ rests _ ih =>
    rw [rests.dir]
    exact ih apart

/-- So is what can be seen of it at any time. -/
theorem view_eq (course : Course deeds s) :
    s.view (Deed.own deeds) = ((Ledger.fresh s.dir.id).after (Deed.actions deeds)).view := by
  obtain ⟨others, sound⟩ := course.sound
  exact course.mirrors_after.view_eq course.own_nodup sound.standing

end Opened.Course

/-! ## The same directory alone -/

namespace Opened

/-- A directory alone on a pool of one bucket and one lock. -/
def alone (id : UInt64) : Opened where
  dir := { id, manager := 0, pool := 0 }
  entries := #[]
  pool := ⟨.empty .plain 1 1, .empty .encrypted 1 1⟩
  tally := {}
  log := {}

/-- What some actions leave, the latest first. -/
def left (s : Opened) : List Action → Opened
  | [] => s
  | action :: actions => Deed.after ⟨s.left actions, action⟩

/-- The deeds of some actions, the latest first. -/
def carried (s : Opened) : List Action → List Deed
  | [] => []
  | action :: actions => ⟨s.left actions, action⟩ :: s.carried actions

variable (id : UInt64) (actions : List Action)

/-- Its pool is one that can be made. -/
theorem alone_pool : Pool.create 1 1 = .ok (alone id).pool := rfl

/-- There is nothing else on the pool. -/
theorem sound_alone : (alone id).Sound fun _ => False where
  standing := .empty #[]
  ledger := .of_expired ⟨List.nodup_nil, List.nodup_nil, fun _ h => absurd h List.not_mem_nil,
    fun _ h => h.elim (absurd · List.not_mem_nil) (absurd · List.not_mem_nil)⟩ rfl rfl rfl
  linked := ⟨[], Pool.sound_create (alone_pool id) _, .nil, fun _ =>
    ⟨fun h => absurd h List.not_mem_nil, fun h => h.elim False.elim fun h =>
      h.elim (absurd · List.not_mem_nil) (absurd · List.not_mem_nil)⟩⟩
  apart := fun _ h => h.elim

theorem course_carried : Course ((alone id).carried actions) ((alone id).left actions) := by
  induction actions with
  | nil => exact .fresh (sound_alone id) rfl rfl rfl rfl
  | cons action actions ih => exact ih.act action

theorem left_alone : ((alone id).left actions).Sound (fun _ => False) ∧
    ((alone id).left actions).dir.id = id := by
  induction actions with
  | nil => exact ⟨sound_alone id, rfl⟩
  | cons action actions ih =>
    obtain ⟨sound, leads⟩ := Deed.leads ⟨(alone id).left actions, action⟩ ih.1
    exact ⟨sound, leads.id.trans ih.2⟩

theorem apart_carried : ∀ deed ∈ (alone id).carried actions, deed.Apart := by
  induction actions with
  | nil => exact fun _ h => absurd h List.not_mem_nil
  | cons action actions ih =>
    have sound := (left_alone id actions).1
    exact List.forall_mem_cons.mpr ⟨⟨fun _ => False, sound, fun _ h => h.elim⟩, ih⟩

/-- It numbers its entries as they are numbered anyway. -/
theorem own_carried : Deed.own ((alone id).carried actions) =
    List.range ((alone id).left actions).entries.size := by
  induction actions with
  | nil => rfl
  | cons action actions ih =>
    show Deed.own (⟨(alone id).left actions, action⟩ :: (alone id).carried actions) = List.range
      (Deed.after ⟨(alone id).left actions, action⟩).entries.size
    rcases Deed.gains ⟨(alone id).left actions, action⟩ (left_alone id actions).1 with
      ⟨inserted, size, -⟩ | ⟨unmade, size, -⟩
    · rw [Deed.own_of_inserted inserted, ih, size, List.range_succ]
    · rw [Deed.own_of_unmade unmade, ih, size]

namespace Course

/-- It has as many insertions alone. -/
theorem length_alone (course : Course deeds s)
    (same : Deed.actions ((alone s.dir.id).carried (Deed.actions deeds)) = Deed.actions deeds) :
    ((alone s.dir.id).left (Deed.actions deeds)).entries.size = (Deed.own deeds).length := by
  have solo := (course_carried s.dir.id (Deed.actions deeds)).mirrors_after
  rw [(left_alone _ _).2, same] at solo
  have size := solo.entries.size
  rw [course.mirrors_after.entries.size, own_carried, List.length_range] at size
  exact size.symm

/-- What was done is the same in its own terms when it is done alone. -/
theorem actions_alone (course : Course deeds s) :
    Deed.actions ((alone s.dir.id).carried (Deed.actions deeds)) = Deed.actions deeds := by
  induction course with
  | fresh => rfl
  | @act deeds s action course ih =>
    obtain ⟨others, sound⟩ := course.sound
    rw [(Deed.leads ⟨s, action⟩ sound).2.id]
    show Action.inTerms (Deed.own ((alone s.dir.id).carried (Deed.actions deeds)))
      (action.inTerms (Deed.own deeds)) :: Deed.actions _ = action.inTerms (Deed.own deeds) :: _
    rw [ih, own_carried, course.length_alone ih]
    cases action with
    | update e => exact congrArg (Action.update · :: _) (idxOf_range List.idxOf_le_length)
    | _ => rfl
  | rest _ rests _ ih =>
    rw [rests.dir]
    exact ih

/-- The directory is seen as it would be if it were alone on a pool of one bucket and one lock. -/
theorem sights_alone (course : Course deeds s) (apart : ∀ deed ∈ deeds, deed.Apart) :
    Deed.sights deeds = Deed.sights ((alone s.dir.id).carried (Deed.actions deeds)) := by
  have solo := course_carried s.dir.id (Deed.actions deeds)
  rw [course.sights_eq apart, solo.sights_eq (apart_carried _ _), (left_alone _ _).2,
    course.actions_alone]

theorem view_alone (course : Course deeds s) :
    s.view (Deed.own deeds) = ((alone s.dir.id).left (Deed.actions deeds)).view
      (Deed.own ((alone s.dir.id).carried (Deed.actions deeds))) := by
  have solo := course_carried s.dir.id (Deed.actions deeds)
  rw [course.view_eq, solo.view_eq, (left_alone _ _).2, course.actions_alone]

/-- A purge gives back the same keys in the same order. -/
theorem purge_alone (course : Course deeds s) :
    (Deed.sight ⟨(alone s.dir.id).left (Deed.actions deeds), .purge⟩
      ((alone s.dir.id).carried (Deed.actions deeds))).keys = s.ledger.keyEvents .purge := by
  have solo := (course_carried s.dir.id (Deed.actions deeds)).mirrors_after
  rw [(left_alone _ _).2, course.actions_alone] at solo
  have events := course.mirrors_after.keyEvents .purge
  have shown : (((Ledger.fresh s.dir.id).after (Deed.actions deeds)).sight .purge).keys = _ :=
    Ledger.keys_sight trivial
  exact (Deed.keys_eq (left_alone _ _).1 solo).trans (shown.trans events)

end Course

end Opened

end NameCache
