/-
  What each operation of a directory does, and that a refused one does nothing.

  Every specification has the same shape: on a sound directory the operation gives its result, the
  directory is sound again, the step is one that leads where operations may lead, and the ledger is
  the one its counterpart makes.  The other way an operation can end is a refusal, and then the
  state is the one it started from.
-/
import NameCache.Proofs.Directory.Destroying
import NameCache.Proofs.Log

namespace NameCache

namespace Opened

variable {s s' : Opened} {others : Nat → Prop} {e n d l : Nat} {expiry : Expiry}
  {label : String} {name encname : Bytes} {generation : UInt64}

/-! ## Steps that only record -/

/-- The counters and the log have no part in soundness. -/
theorem Sound.recorded (sound : s.Sound others) (tally : Tally) (log : Log) :
    ({ s with tally, log } : Opened).Sound others where
  standing := sound.standing
  ledger :=
    { active_nodup := sound.ledger.active_nodup
      stale_nodup := sound.ledger.stale_nodup
      disjoint := sound.ledger.disjoint
      fit := fun e he => (sound.ledger.fit e he).congr (Nat.le_refl _) rfl rfl rfl
      one_list := sound.ledger.one_list
      current := sound.ledger.current
      doubt := sound.ledger.doubt
      scan := sound.ledger.scan }
  linked := sound.linked
  apart := sound.apart

theorem Leads.recorded (s : Opened) (tally : Tally) (log : Log) :
    s.Leads { s with tally, log } :=
  .of_relisted (.of_entries rfl rfl rfl rfl) rfl fun _ => Iff.rfl

/-! ## Destroying many -/

/-- The trace of a purge that destroyed `n` entries of directory number `id`, once they are gone. -/
def purgeTrace (id : UInt64) (n : Nat) : List Event := if n > 0 then [.purged id n] else []

/-- A purge destroys the stale entries and then the active ones, each list from the front. -/
theorem purge_frees (sound : s.Sound others) :
    ∃ s₁, purge s = .ok (s.dir.staleEntries.length + s.dir.activeEntries.length)
        { s₁ with log := s₁.log.emitAll (purgeTrace s.dir.id
            (s.dir.staleEntries.length + s.dir.activeEntries.length)) } ∧
      s.Frees (s.dir.staleEntries ++ s.dir.activeEntries) s₁ ∧
      s₁.Sound others ∧ s.Leads s₁ ∧ s₁.ledger = s.ledger.purge := by
  have ne := s.dir.active.other_list_ne
  obtain ⟨s₁, run₁, sound₁, leads₁, ledger₁, active₁, rest₁, frees₁⟩ :=
    freeList_spec s.dir.active.other.list_lt _ s sound sound.standing.staleCount_eq.symm
  have active_left : s₁.dir.lists.values s.dir.active.list = s.dir.activeEntries :=
    rest₁ _ ne.symm
  obtain ⟨s₂, run₂, sound₂, leads₂, ledger₂, -, -, frees₂⟩ :=
    freeList_spec s.dir.active.list_lt s.dir.activeCount s₁ sound₁ (by
      rw [active_left, sound.standing.activeCount_eq])
  rw [active_left] at ledger₂ frees₂
  refine ⟨s₂, ?_, frees₁.append frees₂, sound₂, leads₁.trans leads₂, ?_⟩
  · rw [← sound.standing.staleCount_eq, ← sound.standing.activeCount_eq, purge, Step.get_bind,
      Step.bind_of_ok run₁, Step.bind_of_ok run₂, purgeTrace]
    by_cases some_freed : s.dir.staleCount + s.dir.activeCount > 0
    · rw [if_pos some_freed, if_pos some_freed]
      rfl
    · rw [if_neg some_freed, if_neg some_freed]
      rfl
  · rw [ledger₂, ledger₁]
    rfl

/-- A purge destroys every entry. -/
theorem purge_spec (sound : s.Sound others) :
    ∃ s', purge s = .ok (s.dir.staleEntries.length + s.dir.activeEntries.length) s' ∧
      s'.Sound others ∧ s.Leads s' ∧ s'.ledger = s.ledger.purge := by
  obtain ⟨s₁, run, -, sound₁, leads, ledger⟩ := purge_frees sound
  exact ⟨_, run, sound₁.recorded _ _, leads.trans (.recorded _ _ _), ledger⟩

/-- Outside an update at most one list has entries, as an assertion says. -/
theorem requireOneList_run (sound : s.Sound others) (idle : s.dir.updating = false) :
    requireOneList s = .ok () s := by
  have run : ∀ side : Side, onLists (SlotLists.isEmpty side.list) s =
      .ok (s.dir.lists.values side.list).isEmpty s := by
    intro side
    have empty := sound.standing.sound.isEmpty_run (sound.standing.two ▸ side.list_lt)
    rw [onLists_of_ok empty, SlotLists.values, List.isEmpty_map]
  have one : s.dir.lists.values Side.a.list = [] ∨ s.dir.lists.values Side.b.list = [] := by
    have h := sound.ledger.one_list idle
    show s.dir.lists.values 0 = [] ∨ s.dir.lists.values 1 = []
    cases side : s.dir.active with
    | a =>
      rw [ledger, Directory.activeEntries, Directory.staleEntries, side] at h
      exact h
    | b =>
      rw [ledger, Directory.activeEntries, Directory.staleEntries, side] at h
      exact h.symm
  rw [requireOneList]
  refine (Step.bind_of_ok (run .a)).trans ?_
  rcases one with h | h
  · rw [h]
    rfl
  · cases (s.dir.lists.values Side.a.list).isEmpty with
    | true => rfl
    | false =>
      refine (Step.bind_of_ok (run .b)).trans ?_
      rw [h]
      rfl

/-- The end of an update destroys the entries that were not confirmed. -/
theorem endUpdate_spec (sound : s.Sound others) :
    ∃ s', endUpdate s = .ok (if s.dir.updating then s.dir.staleEntries.length else 0) s' ∧
      s'.Sound others ∧ s.Leads s' ∧ s'.ledger = s.ledger.endUpdate := by
  rw [endUpdate, Step.get_bind]
  cases idle : s.dir.updating with
  | false =>
    refine ⟨s, ?_, sound, .refl s, ?_⟩
    · exact Step.bind_of_ok (requireOneList_run sound idle)
    · have idle' : s.ledger.updating = false := idle
      rw [Ledger.endUpdate, idle']
      rfl
  | true =>
    obtain ⟨s₁, run, sound₁, leads, ledger, -⟩ :=
      freeList_spec s.dir.active.other.list_lt _ s sound sound.standing.staleCount_eq.symm
    let s' : Opened :=
      { s₁ with
        dir := { s₁.dir with updating := false }
        log := s₁.log.emit (.endedUpdate s.dir.id s.dir.generation s.dir.staleCount) }
    have ledger' : s'.ledger = s.ledger.endUpdate := by
      have scanning : s.ledger.updating = true := idle
      have parts : s'.ledger = { s₁.ledger with updating := false } := rfl
      rw [parts, ledger, Ledger.endUpdate, if_pos scanning]
      rfl
    refine ⟨s', ?_, ⟨sound₁.standing, ?_, sound₁.linked, sound₁.apart⟩, leads.trans ?_, ledger'⟩
    · rw [if_pos rfl, if_pos rfl, ← sound.standing.staleCount_eq, Step.bind_of_ok run]
      rfl
    · rw [ledger']
      exact sound.ledger.endUpdate
    · exact .of_relisted (.of_entries rfl rfl rfl rfl) rfl fun _ => Iff.rfl

/-! ## Beginning and giving up -/

theorem requireNoActive_run (standing : Standing s.dir.lists s.entries)
    (nothing : s.ledger.active = []) : requireNoActive s = .ok () s := by
  have count : s.dir.activeCount = 0 := by
    rw [standing.activeCount_eq]
    exact List.length_eq_zero_iff.mpr nothing
  rw [requireNoActive, Step.get_bind]
  simp only [count]
  rfl

/-- Giving an update up makes every entry stale. -/
theorem abortUpdate_spec (sound : s.Sound others) (expiry : Expiry) :
    ∃ s', abortUpdate expiry s = .ok () s' ∧ s'.Sound others ∧ s.Leads s' ∧
      s'.ledger = s.ledger.abortUpdate expiry := by
  rw [abortUpdate, Step.get_bind]
  cases idle : s.dir.updating with
  | false =>
    refine ⟨s, requireOneList_run sound idle, sound, .refl s, ?_⟩
    have idle' : s.ledger.updating = false := idle
    rw [Ledger.abortUpdate, idle']
    rfl
  | true =>
    let s₀ : Opened := { s with log := s.log.emit (.abortedUpdate s.dir.id s.dir.generation) }
    obtain ⟨s₁, run, standing, ledger, relisted⟩ := expire_spec (s := s₀) sound.standing expiry
    let s' : Opened := { s₁ with dir := { s₁.dir with updating := false } }
    have scanning : s.ledger.updating = true := idle
    have ledger' : s'.ledger = s.ledger.abortUpdate expiry := by
      have parts : s'.ledger = { s₁.ledger with updating := false } := rfl
      rw [parts, ledger, Ledger.abortUpdate, if_pos scanning]
      rfl
    have holds : ∀ e, s'.dir.Holds e ↔ s.dir.Holds e := by
      intro e
      show s'.ledger.Holds e ↔ s.ledger.Holds e
      rw [ledger', Ledger.abortUpdate, if_pos scanning]
      exact Ledger.holds_expire
    have relisted' : Relisted s.dir.Holds s s' :=
      { relisted with pool := relisted.pool }
    have sound' : s'.Sound others :=
      sound.relist relisted' standing (ledger' ▸ sound.ledger.abortUpdate) holds
    refine ⟨s', ?_, sound', .of_relisted relisted' ?_ holds, ledger'⟩
    · rw [if_pos rfl, emit_bind, Step.bind_of_ok run]
      exact requireOneList_run sound' rfl
    · exact (congrArg Ledger.id ledger).trans Ledger.id_expire

/-- The last step of beginning an update, once nothing is active. -/
theorem begin_run (standing : Standing s.dir.lists s.entries) (nothing : s.ledger.active = [])
    (generation : UInt64) :
    (do editDir fun d => { d with generation, updating := true }
        requireNoActive : Step Opened Unit) s =
      .ok () { s with dir := { s.dir with generation, updating := true } } := by
  rw [editDir_bind]
  exact requireNoActive_run (s := { s with dir := { s.dir with generation, updating := true } })
    standing nothing

/-- Once the active entries are demoted, if there were any, the update can start. -/
theorem start_spec (sound : s.Sound others) {s₁ : Opened} (relisted : Relisted s.dir.Holds s s₁)
    (standing : Standing s₁.dir.lists s₁.entries)
    {generation : UInt64} (begins : s.ledger.Begins generation)
    (ledger : s₁.ledger = if s.ledger.active = [] then s.ledger else s.ledger.expire expiry) :
    ∃ s', (do editDir fun d => { d with generation, updating := true }
              requireNoActive : Step Opened Unit) s₁ = .ok () s' ∧
      s'.Sound others ∧ s.Leads s' ∧ s'.ledger = s.ledger.beginUpdate expiry generation := by
  have nothing : s₁.ledger.active = [] := by
    rw [ledger]
    split
    case isTrue h => exact h
    case isFalse => exact Ledger.active_expire
  have same_id : s₁.ledger.id = s.ledger.id := by
    rw [ledger]
    split
    · rfl
    · exact Ledger.id_expire
  let s' : Opened := { s₁ with dir := { s₁.dir with generation, updating := true } }
  have ledger' : s'.ledger = s.ledger.beginUpdate expiry generation := by
    rw [Ledger.beginUpdate, if_pos begins, ← ledger]
    rfl
  have holds : ∀ e, s'.dir.Holds e ↔ s.dir.Holds e := by
    intro e
    show s'.ledger.Holds e ↔ s.ledger.Holds e
    rw [ledger']
    exact Ledger.holds_beginUpdate
  have relisted' : Relisted s.dir.Holds s s' := { relisted with pool := relisted.pool }
  exact ⟨s', begin_run standing nothing generation,
    sound.relist relisted' standing (ledger' ▸ sound.ledger.beginUpdate) holds,
    .of_relisted relisted' same_id holds, ledger'⟩

/-- Beginning an update makes every entry stale, unless it changes nothing. -/
theorem beginUpdate_spec (sound : s.Sound others) (expiry : Expiry) (generation : UInt64) :
    ∃ s', beginUpdate expiry generation s = .ok () s' ∧ s'.Sound others ∧ s.Leads s' ∧
      s'.ledger = s.ledger.beginUpdate expiry generation := by
  rw [beginUpdate, Step.get_bind]
  by_cases begins : s.ledger.Begins generation
  case neg =>
    rw [Ledger.beginUpdate, if_neg begins,
      if_neg (show ¬ (generation ≠ 0 ∧ s.dir.generation ≠ generation) from begins)]
    exact ⟨s, rfl, sound, .refl s, rfl⟩
  rw [if_pos (show generation ≠ 0 ∧ s.dir.generation ≠ generation from begins), emit_bind]
  let s₀ : Opened :=
    { s with log := s.log.emit (.beganUpdate s.dir.id s.dir.generation generation) }
  by_cases nothing : s.ledger.active = []
  · have count : s.dir.activeCount = 0 := by
      rw [sound.standing.activeCount_eq]
      exact List.length_eq_zero_iff.mpr nothing
    rw [if_neg (not_not_intro count)]
    have relisted : Relisted s.dir.Holds s s₀ := .of_entries rfl rfl rfl rfl
    exact start_spec sound relisted sound.standing begins (if_pos nothing).symm
  · have count : s.dir.activeCount ≠ 0 := by
      rw [sound.standing.activeCount_eq]
      exact fun h => nothing (List.length_eq_zero_iff.mp h)
    -- entries are active, so outside an update none is stale
    have guard : (!s.dir.updating && s.dir.staleCount != 0) = false := by
      cases idle : s.dir.updating with
      | true => rfl
      | false =>
        have none_stale : s.dir.staleEntries = [] :=
          (sound.ledger.one_list idle).resolve_left nothing
        rw [sound.standing.staleCount_eq, List.length_eq_zero_iff.mpr none_stale]
        rfl
    obtain ⟨s₁, run, standing, ledger, relisted⟩ := expire_spec (s := s₀) sound.standing expiry
    have relisted' : Relisted s.dir.Holds s s₁ := { relisted with pool := relisted.pool }
    obtain ⟨s', run', rest⟩ := start_spec sound relisted' standing begins
      (ledger.trans (if_neg nothing).symm)
    refine ⟨s', ?_, rest⟩
    rw [if_pos count]
    simp only [guard]
    exact (Step.bind_of_ok run).trans run'

/-! ## Confirming and inserting -/

/-- An entry of the directory is confirmed. -/
theorem update_spec (sound : s.Sound others) (held : s.dir.Holds e) (expiry : Expiry) :
    ∃ s', update expiry e s = .ok () s' ∧ s'.Sound others ∧ s.Leads s' ∧
      s'.ledger = s.ledger.confirm expiry e := by
  obtain ⟨n, l, hm, link⟩ := sound.node held
  have own : ¬ (s.entries.entry e).dir ≠ s.dir.id := not_not_intro (sound.holds_own held)
  have node : s.nodeOf e = some n := by
    rw [nodeOf, link, Option.filter_some, sound.standing.sound.value?_of_mem hm]
    simp
  obtain ⟨s', run, standing, ledger, relisted⟩ :=
    confirm_spec sound.standing (show s.At e (some n) from ⟨l, hm⟩) expiry
  have holds : ∀ d, s'.dir.Holds d ↔ s.dir.Holds d := by
    intro d
    show s'.ledger.Holds d ↔ s.ledger.Holds d
    rw [ledger, Ledger.holds_confirm sound.ledger.toTidy]
    exact or_iff_left_of_imp fun h => h ▸ held
  have relisted' : Relisted s.dir.Holds s s' := relisted.mono fun d hd =>
    hd.elim (fun h => h) fun h => h ▸ held
  refine ⟨s', ?_, sound.relist relisted' standing ?_ holds, .of_relisted relisted' ?_ holds, ledger⟩
  · rw [update, Step.get_bind]
    simp only [if_neg own, node]
    exact run
  · rw [ledger]
    exact sound.ledger.confirm (sound.ledger.fit e held)
  · rw [show s'.dir.id = s'.ledger.id from rfl, ledger, Ledger.id_confirm]
    rfl

/-- An entry of a directory with another number is refused. -/
theorem update_foreign (other : (s.entries.entry e).dir ≠ s.dir.id) (expiry : Expiry) :
    update expiry e s = .error (.wrongDirectory (s.entries.entry e) s.dir.id) s := by
  rw [update, Step.get_bind]
  simp only [if_pos other]
  rfl

/-- Of the entries with the directory's number, those that it does not hold are refused.  The link
    of such an entry may lead to a node of the directory, but that node holds another entry. -/
theorem update_gone (sound : s.Sound others) (own : (s.entries.entry e).dir = s.dir.id)
    (free : ¬ s.dir.Holds e) (expiry : Expiry) :
    update expiry e s = .error (.destroyedEntry (s.entries.entry e)) s := by
  have node : s.nodeOf e = none := by
    rw [nodeOf, Option.filter_eq_none_iff]
    intro n _ h
    have found : s.dir.lists.value? n = some e := by simpa using h
    obtain ⟨l, hm⟩ := sound.standing.sound.value?_eq_some_iff.mp found
    exact free (holds_of_mem sound.standing hm)
  rw [update, Step.get_bind]
  simp only [if_neg (not_not_intro own), node]
  rfl

/-! ## Inserting -/

/-- The state after entry `e` was linked into the tables. -/
def linked (s : Opened) (e m n : Nat) (pool : Pool) : Opened :=
  { s with
    entries := s.entries.modify e fun x => { x with nameNode := some m, encnameNode := some n }
    pool }

theorem ledger_linked (s : Opened) (e m n : Nat) (pool : Pool) :
    (s.linked e m n pool).ledger = s.ledger := by
  ext1
  case entries =>
    exact Entries.map_bare_modify_links
      (f := fun x => { x with nameNode := some m, encnameNode := some n }) fun _ => rfl
  all_goals rfl

theorem standing_linked (standing : Standing s.dir.lists s.entries) (e m n : Nat) (pool : Pool) :
    Standing (s.linked e m n pool).dir.lists (s.linked e m n pool).entries :=
  standing.congr fun _ d _ => Entries.property_modify
    (f := fun x => { x with nameNode := some m, encnameNode := some n }) Entry.dirNode
    (fun _ => rfl) d

/-- The state in which a new entry is on record but on no list. -/
def made (s : Opened) (label : String) (name encname : Bytes) : Opened :=
  { s with
    entries := s.entries.push { dir := s.dir.id, name, encname, key := some label }
    log := s.log.acquire label }

theorem ledger_made (s : Opened) (label : String) (name encname : Bytes) :
    (s.made label name encname).ledger = s.ledger.make label name encname := by
  ext1
  case entries => exact Array.map_push ..
  all_goals rfl

theorem made_entry_lt (h : d < s.entries.size) :
    (s.made label name encname).entries.entry d = s.entries.entry d :=
  Entries.entry_push_lt h

theorem size_made : (s.made label name encname).entries.size = s.entries.size + 1 :=
  Array.size_push ..

/-- The new entry is confirmed before it is linked. -/
theorem confirm_made (sound : s.Sound others) (expiry : Expiry) (label : String)
    (name encname : Bytes) :
    ∃ s', confirm expiry s.entries.size none (s.made label name encname) = .ok () s' ∧
      Standing s'.dir.lists s'.entries ∧
      s'.ledger = (s.ledger.make label name encname).confirm expiry s.entries.size ∧
      Relisted (fun d => s.dir.Holds d ∨ d = s.entries.size) (s.made label name encname) s' := by
  have standing : Standing (s.made label name encname).dir.lists
      (s.made label name encname).entries := by
    refine sound.standing.congr fun l d hd => ?_
    obtain ⟨n, hm⟩ := SlotLists.mem_values.mp hd
    exact congrArg Entry.dirNode (made_entry_lt (sound.holds_lt (holds_of_mem sound.standing hm)))
  have new : (s.made label name encname).At s.entries.size none :=
    ⟨fun held => Nat.lt_irrefl _ (sound.holds_lt held), by rw [size_made]; exact Nat.lt_succ_self _⟩
  obtain ⟨s', run, standing', ledger, relisted⟩ := confirm_spec standing new expiry
  exact ⟨s', run, standing', ledger_made s label name encname ▸ ledger, relisted⟩

/-- The parts of an insertion, one after the other. -/
theorem insert_run (fits : Entry.FitName name ∧ Entry.FitName encname) {s₁ : Opened} {m n : Nat}
    {pool : Pool}
    (confirmed : confirm expiry s.entries.size none (s.made label name encname) = .ok () s₁)
    (link : Pool.link s.entries.size ⟨s₁.entries, s₁.pool⟩ =
      .ok () ⟨(s₁.linked s.entries.size m n pool).entries, pool⟩) :
    insert expiry label name encname s = .ok s.entries.size
      { s₁.linked s.entries.size m n pool with
        tally := s₁.tally.addInsert
        log := s₁.log.emit (.inserted s.dir.id
          ((s₁.linked s.entries.size m n pool).entries.entry s.entries.size)) } := by
  have created : Entry.create s.dir.id name encname label =
      .ok { dir := s.dir.id, name, encname, key := some label } := if_pos fits
  rw [insert, Step.get_bind, created]
  refine (Step.pure_bind_run _ _ _).trans ?_
  rw [Step.get_bind, Step.modify_bind]
  refine (Step.bind_of_ok confirmed).trans ?_
  rw [Step.bind_of_ok (onPool_of_ok link), editTally_bind, entry_bind]
  rfl

section Insert

variable {s₁ : Opened} {m n : Nat} {pool : Pool}

/-- Confirming and linking a new entry changes entries that are held and makes one. -/
theorem leads_linked
    (relisted : Relisted (fun d => s.dir.Holds d ∨ d = s.entries.size) (s.made label name encname)
      s₁)
    (id : s₁.dir.id = s.dir.id)
    (holds : ∀ d, (s₁.linked s.entries.size m n pool).dir.Holds d ↔
      s.dir.Holds d ∨ d = s.entries.size) :
    s.Leads (s₁.linked s.entries.size m n pool) := by
  have size : (s₁.linked s.entries.size m n pool).entries.size = s.entries.size + 1 :=
    Entries.size_modify.trans (relisted.size.trans size_made)
  have old : ∀ d, d < s.entries.size →
      (s₁.linked s.entries.size m n pool).entries.entry d = s₁.entries.entry d ∧
        Restamped (s.entries.entry d) (s₁.entries.entry d) := by
    intro d hd
    have stamped := relisted.entry d
    rw [made_entry_lt hd] at stamped
    exact ⟨Entries.entry_modify_ne (Nat.ne_of_lt hd), stamped⟩
  refine ⟨id, relisted.manager, relisted.number, size ▸ Nat.le_succ _, fun d hd off => ?_,
    fun d hd => ?_, fun d hd => ?_, fun d hd => ?_, fun d hd h => ?_⟩
  · have untouched := relisted.apart d fun h => h.elim off fun heq => Nat.lt_irrefl _ (heq ▸ hd)
    rw [(old d hd).1, untouched, made_entry_lt hd]
  · rw [(old d hd).1, (old d hd).2]
    exact ⟨rfl, rfl, rfl⟩
  · rw [(old d hd).1, (old d hd).2]
    exact .inl rfl
  · exact ((holds d).mp hd).imp_right fun heq => Nat.le_of_eq heq.symm
  · refine .inl ((holds d).mpr (h.imp_right fun new => ?_))
    rw [size] at hd
    omega

/-- The new entry is in front of both tables, as the newest one. -/
theorem sound_linked (sound : s.Sound others)
    (size : (s₁.linked s.entries.size m n pool).entries.size = s.entries.size + 1)
    (standing : Standing s₁.dir.lists s₁.entries) (kept : s₁.ledger.Sound)
    (holds : ∀ d, (s₁.linked s.entries.size m n pool).dir.Holds d ↔
      s.dir.Holds d ∨ d = s.entries.size)
    {order : List Nat}
    (linked : pool.Sound (s₁.linked s.entries.size m n pool).entries (s.entries.size :: order))
    (sorted : order.Pairwise (· > ·)) (older : ∀ d ∈ order, d < s.entries.size)
    (members : ∀ d, d ∈ order ↔ others d ∨ s.dir.Holds d) :
    (s₁.linked s.entries.size m n pool).Sound others := by
  refine ⟨standing_linked standing _ m n pool, ?_, ⟨s.entries.size :: order, linked,
    List.pairwise_cons.mpr ⟨older, sorted⟩, fun d => ?_⟩, fun d hd => ?_⟩
  · rw [ledger_linked]
    exact kept
  · rw [List.mem_cons, members, holds, or_left_comm, or_comm (a := d = s.entries.size)]
  · obtain ⟨off, lt⟩ := sound.apart d hd
    refine ⟨fun h => ((holds d).mp h).elim off fun heq => Nat.lt_irrefl _ (heq ▸ lt), ?_⟩
    rw [size]
    exact Nat.lt_succ_of_lt lt

end Insert

/-- A pair of names is cached under a new entry, the newest of the pool. -/
theorem insert_spec (sound : s.Sound others) (fits : Entry.FitName name ∧ Entry.FitName encname)
    (expiry : Expiry) (label : String) :
    ∃ s', insert expiry label name encname s = .ok s.entries.size s' ∧ s'.Sound others ∧
      s.Leads s' ∧ s'.ledger = s.ledger.insert expiry label name encname := by
  obtain ⟨order, linked, sorted, members⟩ := sound.linked
  obtain ⟨s₁, confirmed, standing, ledger, relisted⟩ :=
    confirm_made sound expiry label name encname
  have size : s₁.entries.size = s.entries.size + 1 := relisted.size.trans size_made
  have size_eq : s.ledger.entries.size = s.entries.size := Array.size_map
  have older : ∀ d ∈ order, d < s.entries.size := fun d hd =>
    ((members d).mp hd).elim (fun h => (sound.apart d h).2) sound.holds_lt
  -- confirming the new entry leaves the tables alone: it is not in them yet
  have linked₁ : s₁.pool.Sound s₁.entries order := by
    rw [relisted.pool]
    refine linked.congr fun d hd kind => ?_
    have same := relisted.linked d kind
    rwa [made_entry_lt (older d hd)] at same
  obtain ⟨m, n, pool, link, linked₂⟩ :=
    linked₁.link_spec (size ▸ Nat.lt_succ_self _) fun h => Nat.lt_irrefl _ (older _ h)
  have holds : ∀ d, (s₁.linked s.entries.size m n pool).dir.Holds d ↔
      s.dir.Holds d ∨ d = s.entries.size := by
    intro d
    show (s₁.linked s.entries.size m n pool).ledger.Holds d ↔ _
    rw [ledger_linked, ledger,
      Ledger.holds_confirm (sound.ledger.toTidy.make label name encname)]
    exact Iff.rfl
  have kept : s₁.ledger.Sound := by
    have fit := Ledger.fit_made s.ledger label name encname
    rw [size_eq] at fit
    rw [ledger]
    exact (sound.ledger.make label name encname).confirm fit
  have id : s₁.dir.id = s.dir.id := (congrArg Ledger.id ledger).trans Ledger.id_confirm
  refine ⟨_, insert_run fits confirmed link,
    (sound_linked sound (Entries.size_modify.trans size) standing kept holds linked₂ sorted older
      members).recorded _ _,
    (leads_linked relisted id holds).trans (.recorded _ _ _), ?_⟩
  rw [Ledger.insert, size_eq, ← ledger, ← ledger_linked s₁ s.entries.size m n pool]
  rfl

/-- Names of an impossible length are refused. -/
theorem insert_refused (unfit : ¬ (Entry.FitName name ∧ Entry.FitName encname)) (expiry : Expiry)
    (label : String) (s : Opened) :
    insert expiry label name encname s =
      .error (.badNameLength name.length encname.length) s := by
  have created : Entry.create s.dir.id name encname label =
      .error (.badNameLength name.length encname.length) := if_neg unfit
  rw [insert, Step.get_bind, created]
  rfl

/-! ## Looking up -/

/-- The state after a lookup was counted and recorded. -/
def lookedUp (s : Opened) (kind : NameKind) (name : Bytes) (found : Option Nat) : Opened :=
  { s with
    tally := s.tally.addLookup found.isSome
    log := s.log.emit (match found with
      | some e => .lookupHit kind s.dir.id (s.entries.entry e)
      | none => .lookupMiss kind s.dir.id name) }

theorem recordLookup_run (kind : NameKind) (name : Bytes) (found : Option Nat) (s : Opened) :
    recordLookup kind name found s = .ok () (s.lookedUp kind name found) := by
  cases found <;> rfl

/-- A plain name is looked up while nothing is in doubt. -/
theorem lookupName_run (standing : Standing s.dir.lists s.entries) (idle : s.dir.updating = false)
    (clean : s.dir.staleEntries = []) (name : Bytes) :
    lookupName name s = .ok (s.findName name) (s.lookedUp .plain name (s.findName name)) := by
  have count : s.dir.staleCount = 0 := by rw [standing.staleCount_eq, clean]; rfl
  rw [lookupName, Step.get_bind]
  simp only [idle, count]
  exact Step.bind_of_ok (recordLookup_run .plain name (s.findName name) s)

/-- During an update the lookup is refused. -/
theorem lookupName_updating (scanning : s.dir.updating = true) (name : Bytes) :
    lookupName name s = .error (.lookupWhileUpdating s.dir.id) s := by
  rw [lookupName, Step.get_bind]
  simp only [if_pos scanning]
  rfl

/-- And so it is while stale entries wait. -/
theorem lookupName_stale (standing : Standing s.dir.lists s.entries)
    (idle : s.dir.updating = false) (pending : s.dir.staleEntries ≠ []) (name : Bytes) :
    lookupName name s =
      .error (.lookupWhileStale s.dir.id s.dir.staleEntries.length) s := by
  have count : s.dir.staleCount = s.dir.staleEntries.length := standing.staleCount_eq
  have some_stale : s.dir.staleEntries.length ≠ 0 := fun h =>
    pending (List.length_eq_zero_iff.mp h)
  rw [lookupName, Step.get_bind]
  simp only [idle, count, if_pos some_stale]
  rfl

/-- An encrypted name is looked up at any time. -/
theorem lookupEncname_run (encname : Bytes) (s : Opened) :
    lookupEncname encname s =
      .ok (s.findEncname encname) (s.lookedUp .encrypted encname (s.findEncname encname)) := by
  rw [lookupEncname, Step.get_bind]
  exact Step.bind_of_ok (recordLookup_run .encrypted encname (s.findEncname encname) s)

end Opened

end NameCache
