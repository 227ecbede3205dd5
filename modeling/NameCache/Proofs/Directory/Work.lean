/-
  What operations on a directory are put together from.

  Every operation on a directory is a sequence of a few steps, which change one part each, and of
  looks at the state in between (`Work`).  None of these steps changes the shape of the pool, and
  none looks at the log or records that a pool was given back.  So the bucket of a name is the same
  bucket at any time (`Work.keeps_shape`), and what an operation does, answers and adds to the log
  is the same whatever the log was (`Work.blind`).

  The operations are followed by their text once, and both facts by induction on the steps.
-/
import NameCache.Proofs.Directory.Shape
import NameCache.Proofs.Log

namespace NameCache

open Step

namespace Opened

variable {α β : Type}

/-- The operations that are put together from the steps on a directory. -/
inductive Work : {α : Type} → Step Opened α → Prop
  | pure {α : Type} (a : α) : Work (pure a)
  | throw {α : Type} (fault : Fault) : Work (throw fault : Step Opened α)
  | bind {α β : Type} {x : Step Opened α} {f : α → Step Opened β} (first : Work x)
    (rest : ∀ a, Work (f a)) : Work (x >>= f)
  /-- A look at the state, but not at the log. -/
  | get {α : Type} {f : Opened → Step Opened α} (same : ∀ s log, f { s with log } = f s)
    (rest : ∀ s, Work (f s)) : Work (get >>= f)
  | editDir {f : Directory → Directory} (same : ∀ d, (f d).pool = d.pool) : Work (editDir f)
  | editEntry (e : Nat) (f : Entry → Entry) : Work (editEntry e f)
  | editTally (f : Tally → Tally) : Work (editTally f)
  | emit {event : Event} (quiet : event.ofPool = false) : Work (emit event)
  /-- A new entry, and the reference to its key. -/
  | acquire (made : Entry) (label : String) : Work (modify fun s =>
      { s with entries := s.entries.push made, log := s.log.acquire label })
  | release (label : String) : Work (modify fun s => { s with log := s.log.release label })
  | onLists {α : Type} (op : Step (SlotLists Nat) α) : Work (onLists op)
  | onPool {α : Type} {op : Step (Indexed Pool) α}
    (kept : Step.Keeps (fun s : Indexed Pool => s.index.shape) op) : Work (onPool op)

/-- An operation does not depend on the log.  It adds to it, but nothing of the giving back of
    pools. -/
def Blind (op : Step Opened α) : Prop :=
  ∀ s : Opened, ∃ (r : Except Fault α) (s' : Opened) (gained : Log),
    (∀ event ∈ gained.events, event.ofPool = false) ∧
      ∀ log, op { s with log } = result r { s' with log := gained.onto log }

/-- Which pool the directory is on, and the shape of that pool, are the same afterwards. -/
theorem Work.keeps_shape {op : Step Opened α} (work : Work op) : KeepsShape op := by
  induction work with
  | pure a => exact .pure a
  | throw fault => exact .throw fault
  | bind _ _ first rest => exact .bind first rest
  | get _ _ rest => exact .bind .get rest
  | editDir same => exact .modify fun s => congrArg (·, s.pool.shape) (same s.dir)
  | editEntry e f => exact .modify fun _ => rfl
  | editTally f => exact .modify fun _ => rfl
  | emit _ => exact .modify fun _ => rfl
  | acquire made label => exact .modify fun _ => rfl
  | release label => exact .modify fun _ => rfl
  | onLists op => exact .aside fun _ _ => rfl
  | onPool kept => exact .focus kept fun s _ same => congrArg (s.dir.pool, ·) same

theorem Work.blind {op : Step Opened α} (work : Work op) : Blind op := by
  have silent : ∀ event ∈ ({} : Log).events, event.ofPool = false :=
    fun _ h => absurd h List.not_mem_nil
  induction work with
  | pure a => exact fun s => ⟨.ok a, s, {}, silent, fun _ => rfl⟩
  | throw fault => exact fun s => ⟨.error fault, s, {}, silent, fun _ => rfl⟩
  | @bind _ _ x f _ _ first rest =>
    intro s
    obtain ⟨r, s₁, gained, quiet, run⟩ := first s
    cases r with
    | error fault => exact ⟨.error fault, s₁, gained, quiet, fun log => bind_of_error (run log)⟩
    | ok a =>
      obtain ⟨r, s₂, more, quiet', run'⟩ := rest a s₁
      refine ⟨r, s₂, more.onto gained, fun event h => ?_, fun log => ?_⟩
      · rcases List.mem_append.mp h with h | h
        · exact quiet' event h
        · exact quiet event h
      · rw [bind_of_ok (run log), run', Log.onto_onto]
  | @get _ f same _ rest =>
    intro s
    obtain ⟨r, s', gained, quiet, run⟩ := rest s s
    refine ⟨r, s', gained, quiet, fun log => ?_⟩
    rw [get_bind, same, run]
  | @editDir f _ => exact fun s => ⟨.ok (), { s with dir := f s.dir }, {}, silent, fun _ => rfl⟩
  | editEntry e f =>
    exact fun s => ⟨.ok (), { s with entries := s.entries.modify e f }, {}, silent, fun _ => rfl⟩
  | editTally f =>
    exact fun s => ⟨.ok (), { s with tally := f s.tally }, {}, silent, fun _ => rfl⟩
  | @emit event quiet =>
    exact fun s => ⟨.ok (), s, { events := [event] }, by simpa using quiet, fun _ => rfl⟩
  | acquire made label =>
    exact fun s => ⟨.ok (), { s with entries := s.entries.push made },
      { keys := [.acquired label] }, silent, fun _ => rfl⟩
  | release label =>
    exact fun s => ⟨.ok (), s, { keys := [.released label] }, silent, fun _ => rfl⟩
  | onLists op =>
    intro s
    cases run : op s.dir.lists with
    | ok a lists =>
      refine ⟨.ok a, { s with dir := { s.dir with lists } }, {}, silent, fun log => ?_⟩
      rw [Opened.onLists, Step.focus, run]
      rfl
    | error fault lists =>
      refine ⟨.error fault, { s with dir := { s.dir with lists } }, {}, silent, fun log => ?_⟩
      rw [Opened.onLists, Step.focus, run]
      rfl
  | @onPool _ op _ =>
    intro s
    cases run : op ⟨s.entries, s.pool⟩ with
    | ok a t =>
      refine ⟨.ok a, { s with entries := t.entries, pool := t.index }, {}, silent, fun log => ?_⟩
      rw [Opened.onPool, Step.focus, run]
      rfl
    | error fault t =>
      refine ⟨.error fault, { s with entries := t.entries, pool := t.index }, {}, silent,
        fun log => ?_⟩
      rw [Opened.onPool, Step.focus, run]
      rfl

theorem work_require (x : Except Fault α) : Work (Step.require x) := by
  cases x with
  | ok a => exact .pure a
  | error fault => exact .throw fault

theorem work_entry (e : Nat) : Work (entry e) := .get (fun _ _ => rfl) fun _ => .pure _

theorem work_activeFront : Work activeFront := .get (fun _ _ => rfl) fun _ => .onLists _

/-! ## Demoting and confirming -/

theorem work_demoteActive (fuel : Nat) : Work (demoteActive fuel) := by
  induction fuel with
  | zero =>
    refine .bind work_activeFront fun front => ?_
    split
    · exact .throw _
    · exact .pure _
  | succ fuel ih =>
    refine .bind work_activeFront fun front => ?_
    split
    · exact .pure _
    · refine .get (fun _ _ => rfl) fun s => ?_
      have moved : ∀ node list, Work (do
          onLists (SlotLists.moveToFront node list)
          demoteActive fuel) := fun _ _ => .bind (.onLists _) fun _ => ih
      dsimp only
      split
      · exact .bind (.editEntry _ _) fun _ => .bind (work_entry _) fun _ =>
          .bind (.emit rfl) fun _ => moved _ _
      · exact moved _ _

theorem work_requireNoActive : Work requireNoActive := by
  refine .get (fun _ _ => rfl) fun s => ?_
  dsimp only
  split
  · exact .throw _
  · exact .pure _

theorem work_expire (expiry : Expiry) : Work (expire expiry) := by
  have counted : Work (do editTally Tally.addExpiration; requireNoActive) :=
    .bind (.editTally _) fun _ => work_requireNoActive
  refine .bind (.editDir fun _ => rfl) fun _ => .get (fun _ _ => rfl) fun s => ?_
  dsimp only
  split
  · refine .bind (.bind (.editDir fun _ => rfl) fun _ => ?_) fun _ => counted
    exact .get (fun _ _ => rfl) fun _ => .emit rfl
  · exact .bind (work_demoteActive _) fun _ => counted

theorem work_enlist (e : Nat) (side : Side) : Work (enlist e side) :=
  .bind (.onLists _) fun _ => .editEntry _ _

theorem work_confirm (expiry : Expiry) (e : Nat) (node : Option Nat) :
    Work (confirm expiry e node) := by
  refine .get (fun _ _ => rfl) fun s => .bind (work_entry e) fun before => ?_
  split
  · refine .bind (.emit rfl) fun _ => .bind (.editEntry _ _) fun _ => ?_
    split
    · exact .onLists _
    · exact work_enlist _ _
  · split
    · refine .bind (.emit rfl) fun _ => .bind (work_expire _) fun _ =>
        .bind (.editEntry _ _) fun _ => ?_
      split
      · exact .get (fun _ _ => rfl) fun _ => work_enlist _ _
      · exact .pure _
    · split
      · exact work_enlist _ _
      · exact .pure _

theorem work_insert (expiry : Expiry) (label : String) (name encname : Bytes) :
    Work (insert expiry label name encname) :=
  .get (fun _ _ => rfl) fun _ => .bind (work_require _) fun made =>
    .get (fun _ _ => rfl) fun _ => .bind (.acquire made label) fun _ =>
      .bind (work_confirm _ _ _) fun _ => .bind (.onPool (Pool.keeps_link _)) fun _ =>
        .bind (.editTally _) fun _ => .bind (work_entry _) fun _ => .bind (.emit rfl) fun _ =>
          .pure _

theorem work_update (expiry : Expiry) (e : Nat) : Work (update expiry e) := by
  refine .get (fun _ _ => rfl) fun s => ?_
  dsimp only
  split
  · exact .throw _
  · split
    · exact .throw _
    · exact work_confirm _ _ _

/-! ## Destroying -/

theorem work_free (node : Nat) : Work (free node) := by
  refine .get (fun _ _ => rfl) fun s => .bind (.onLists _) fun removed => ?_
  split
  · exact .throw _
  · refine .bind (work_entry _) fun _ => .bind (.emit rfl) fun _ => .bind (.editEntry _ _) fun _ =>
      .bind (.onPool (Pool.keeps_unlink _)) fun _ => .bind (work_entry _) fun _ => ?_
    dsimp only
    split
    · exact .bind (.editEntry _ _) fun _ => .bind (.release _) fun _ => .editTally _
    · exact .editTally _

theorem work_freeList (list fuel : Nat) : Work (freeList list fuel) := by
  induction fuel with
  | zero =>
    refine .bind (.onLists _) fun front => ?_
    dsimp only
    split
    · exact .throw _
    · exact .pure _
  | succ fuel ih =>
    refine .bind (.onLists _) fun front => ?_
    split
    · exact .pure _
    · exact .bind (work_free _) fun _ => .bind ih fun _ => .pure _

theorem work_purge : Work purge := by
  refine .get (fun _ _ => rfl) fun s => .bind (work_freeList _ _) fun stale =>
    .bind (work_freeList _ _) fun active => ?_
  dsimp only
  split
  · exact .bind (.emit rfl) fun _ => .pure _
  · exact .pure _

/-- What a directory does when it goes. -/
theorem work_leave (id : UInt64) : Work (do
    let freed ← purge
    emit (.destroyed id freed)) := .bind work_purge fun _ => .emit rfl

/-! ## Updates -/

theorem work_beginUpdate (expiry : Expiry) (generation : UInt64) :
    Work (beginUpdate expiry generation) := by
  have begun : Work (do
      editDir fun d => { d with generation, updating := true }
      requireNoActive) := .bind (.editDir fun _ => rfl) fun _ => work_requireNoActive
  refine .get (fun _ _ => rfl) fun s => ?_
  dsimp only
  split
  · refine .bind (.emit rfl) fun _ => ?_
    split
    · split
      · exact .throw _
      · exact .bind (work_expire _) fun _ => begun
    · exact begun
  · exact .pure _

theorem work_requireOneList : Work requireOneList := by
  refine .bind (.onLists _) fun first => ?_
  split
  · refine .bind (.onLists _) fun second => ?_
    split
    · exact .throw _
    · exact .pure _
  · exact .pure _

theorem work_endUpdate : Work endUpdate := by
  refine .get (fun _ _ => rfl) fun s => ?_
  dsimp only
  split
  · exact .bind (work_freeList _ _) fun _ => .bind (.editDir fun _ => rfl) fun _ =>
      .bind (.emit rfl) fun _ => .pure _
  · exact .bind work_requireOneList fun _ => .pure _

theorem work_abortUpdate (expiry : Expiry) : Work (abortUpdate expiry) := by
  refine .get (fun _ _ => rfl) fun s => ?_
  dsimp only
  split
  · exact .bind (.emit rfl) fun _ => .bind (work_expire _) fun _ =>
      .bind (.editDir fun _ => rfl) fun _ => work_requireOneList
  · exact work_requireOneList

/-! ## Lookups -/

theorem work_recordLookup (kind : NameKind) (name : Bytes) (found : Option Nat) :
    Work (recordLookup kind name found) := by
  refine .bind (.editTally _) fun _ => .get (fun _ _ => rfl) fun s => ?_
  split
  · exact .emit rfl
  · exact .emit rfl

theorem work_lookupName (name : Bytes) : Work (lookupName name) := by
  refine .get (fun _ _ => rfl) fun s => ?_
  dsimp only
  split
  · exact .throw _
  · split
    · exact .throw _
    · exact .bind (work_recordLookup _ _ _) fun _ => .pure _

theorem work_lookupEncname (encname : Bytes) : Work (lookupEncname encname) :=
  .get (fun _ _ => rfl) fun _ => .bind (work_recordLookup _ _ _) fun _ => .pure _

end Opened

/-- Every action is put together from the steps on a directory. -/
theorem Action.work (expiry : Expiry) (action : Action) : Opened.Work (action.run expiry) := by
  cases action with
  | insert label name encname => exact .bind (Opened.work_insert _ _ _ _) fun _ => .pure _
  | update e => exact .bind (Opened.work_update _ _) fun _ => .pure _
  | lookupName name => exact .bind (Opened.work_lookupName _) fun _ => .pure _
  | lookupEncname encname => exact .bind (Opened.work_lookupEncname _) fun _ => .pure _
  | beginUpdate hold generation =>
    refine .bind ?_ fun _ => .bind (Opened.work_beginUpdate _ _) fun _ =>
      .get (fun _ _ => rfl) fun _ => .pure _
    cases hold with
    | exclusive => exact .pure _
    | shared => exact .get (fun _ _ => rfl) fun _ => .emit rfl
    | upgradable => exact .pure _
    | contended => exact .get (fun _ _ => rfl) fun _ => .emit rfl
  | endUpdate => exact .bind Opened.work_endUpdate fun _ => .pure _
  | abortUpdate => exact .bind (Opened.work_abortUpdate _) fun _ => .pure _
  | purge => exact .bind Opened.work_purge fun _ => .pure _

end NameCache
