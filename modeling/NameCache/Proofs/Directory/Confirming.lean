/-
  Demoting and confirming, run step by step.

  These operations move nodes between the two lists and stamp entries; they never touch a table.
  `Relisted` is what they leave alone.  `demoteActive_spec` is the loop: each round takes the first
  active entry over to the stale ones, so it ends when the active ones are used up, which is when
  its fuel is.  The other specifications follow the text of the operations and find, in each
  branch, the counterpart on the ledger.
-/
import NameCache.Proofs.Directory.Standing
import NameCache.Proofs.Directory.Upkeep

namespace NameCache

/-- Whether an entry is on one of the two lists. -/
def Directory.Holds (d : Directory) (e : Nat) : Prop := e ∈ d.activeEntries ∨ e ∈ d.staleEntries

namespace Opened

variable {s s' s'' : Opened} {e n d : Nat} {expiry : Expiry} {side : Side}

/-! ## Steps on one part, followed by others -/

section Binds

variable {β : Type} (f : PUnit → Step Opened β)

@[simp] theorem emit_bind (event : Event) :
    (emit event >>= f) s = f () { s with log := s.log.emit event } := rfl

@[simp] theorem editDir_bind (g : Directory → Directory) :
    (editDir g >>= f) s = f () { s with dir := g s.dir } := rfl

@[simp] theorem editEntry_bind (e : Nat) (g : Entry → Entry) :
    (editEntry e g >>= f) s = f () { s with entries := s.entries.modify e g } := rfl

@[simp] theorem editTally_bind (g : Tally → Tally) :
    (editTally g >>= f) s = f () { s with tally := g s.tally } := rfl

@[simp] theorem entry_bind (e : Nat) (f : Entry → Step Opened β) :
    (entry e >>= f) s = f (s.entries.entry e) s := rfl

end Binds

theorem onLists_of_ok {α : Type} {op : Step (SlotLists Nat) α} {a : α} {lists : SlotLists Nat}
    (run : op s.dir.lists = .ok a lists) :
    onLists op s = .ok a { s with dir := { s.dir with lists } } := by
  rw [onLists, Step.focus, run]

/-! ## What moving and stamping leave alone -/

/-- An entry of which at most the generation and the place in its directory changed. -/
def Restamped (x y : Entry) : Prop :=
  y = { x with generation := y.generation, dirNode := y.dirNode }

/-- At most the lists, and of some entries the generation and the place there, changed. -/
structure Relisted (touched : Nat → Prop) (s s' : Opened) : Prop where
  manager : s'.dir.manager = s.dir.manager
  number : s'.dir.pool = s.dir.pool
  pool : s'.pool = s.pool
  size : s'.entries.size = s.entries.size
  entry : ∀ d, Restamped (s.entries.entry d) (s'.entries.entry d)
  apart : ∀ d, ¬ touched d → s'.entries.entry d = s.entries.entry d

namespace Relisted

variable {touched touched' : Nat → Prop}

/-- The entries are the same. -/
theorem of_entries (manager : s'.dir.manager = s.dir.manager) (number : s'.dir.pool = s.dir.pool)
    (pool : s'.pool = s.pool) (entries : s'.entries = s.entries) : Relisted touched s s' where
  manager := manager
  number := number
  pool := pool
  size := by rw [entries]
  entry := fun d => by rw [entries]; rfl
  apart := fun d _ => by rw [entries]

/-- One entry was stamped or got another place. -/
theorem of_modify (he : touched e) {f : Entry → Entry} (hf : ∀ x, Restamped x (f x))
    (manager : s'.dir.manager = s.dir.manager) (number : s'.dir.pool = s.dir.pool)
    (pool : s'.pool = s.pool) (entries : s'.entries = s.entries.modify e f) :
    Relisted touched s s' := by
  have other : ∀ d, d ≠ e → s'.entries.entry d = s.entries.entry d := by
    intro d hd
    rw [entries, Entries.entry_modify_ne hd]
  refine ⟨manager, number, pool, by rw [entries, Entries.size_modify], fun d => ?_, fun d hd => ?_⟩
  · by_cases hde : d = e
    · subst hde
      by_cases hlt : d < s.entries.size
      · rw [entries, Entries.entry_modify_self hlt]
        exact hf _
      · have le : s.entries.size ≤ d := by omega
        have le' : s'.entries.size ≤ d := by rw [entries, Entries.size_modify]; exact le
        rw [Entries.entry_of_le le, Entries.entry_of_le le']
        rfl
    · rw [other d hde]
      rfl
  · exact other d fun h => hd (h ▸ he)

theorem trans (first : Relisted touched s s') (second : Relisted touched s' s'') :
    Relisted touched s s'' where
  manager := second.manager.trans first.manager
  number := second.number.trans first.number
  pool := second.pool.trans first.pool
  size := second.size.trans first.size
  entry := fun d => by
    rw [Restamped, second.entry d, first.entry d]
  apart := fun d hd => (second.apart d hd).trans (first.apart d hd)

theorem mono (relisted : Relisted touched s s') (le : ∀ d, touched d → touched' d) :
    Relisted touched' s s' where
  manager := relisted.manager
  number := relisted.number
  pool := relisted.pool
  size := relisted.size
  entry := relisted.entry
  apart := fun d hd => relisted.apart d fun h => hd (le d h)

/-- Names and table links are as they were. -/
theorem linked (relisted : Relisted touched s s') (d : Nat) (kind : NameKind) :
    (s'.entries.entry d).hash kind = (s.entries.entry d).hash kind ∧
      (s'.entries.entry d).bucketNode kind = (s.entries.entry d).bucketNode kind := by
  rw [relisted.entry d]
  cases kind <;> exact ⟨rfl, rfl⟩

end Relisted

/-! ## Demoting -/

/-- The first active node. -/
theorem activeFront_run (standing : Standing s.dir.lists s.entries) :
    activeFront s = .ok ((s.dir.lists.chain s.dir.active.list).head?.map (·.1)) s := by
  rw [activeFront, Step.get_bind]
  exact onLists_of_ok (standing.sound.front_run (standing.two ▸ s.dir.active.list_lt))

/-- The state in the middle of a round of demoting: the entry is stamped but not moved yet. -/
def stamped (s : Opened) (e : Nat) : Opened :=
  let entries := s.entries.modify e fun entry => { entry with generation := 0 }
  { s with entries, log := s.log.emit (.expiredEntry s.dir.id (Entries.entry entries e)) }

theorem demoteActive_succ {fuel : Nat} (front : activeFront s = .ok (some n) s)
    (value : s.dir.lists.value? n = some e) :
    demoteActive (fuel + 1) s =
      (do onLists (SlotLists.moveToFront n s.dir.active.other.list); demoteActive fuel)
        (s.stamped e) := by
  rw [demoteActive, Step.bind_of_ok front]
  refine (Step.get_bind _ s).trans ?_
  simp only [value]
  rfl

/-- One round of demoting: the first active entry is stamped and moved over. -/
theorem demoteActive_round (standing : Standing s.dir.lists s.entries) {rest : List Nat}
    (active : s.dir.activeEntries = e :: rest) (fuel : Nat) :
    ∃ s₁, demoteActive (fuel + 1) s = demoteActive fuel s₁ ∧
      Standing s₁.dir.lists s₁.entries ∧
      s₁.ledger = { s.ledger.stamp e 0 with active := rest, stale := e :: s.ledger.stale } ∧
      Relisted (· = e) s s₁ := by
  obtain ⟨⟨n, d⟩, tail, chain, rfl, rest_eq⟩ := List.map_eq_cons_iff.mp active
  have hm : (n, d) ∈ s.dir.lists.chain s.dir.active.list := by
    rw [chain]
    exact List.mem_cons_self ..
  have on_active : d ∈ s.dir.activeEntries := by
    rw [active]
    exact List.mem_cons_self ..
  have off_stale : d ∉ s.dir.staleEntries := fun h =>
    s.dir.active.other_list_ne (standing.unique on_active h)
  obtain ⟨lists', run, standing', values⟩ :=
    (standing.stamp d 0).move hm s.dir.active.other.list_lt
  refine ⟨{ s.stamped d with dir := { s.dir with lists := lists' } }, ?_, standing', ?_, ?_⟩
  · have front := activeFront_run standing
    rw [chain] at front
    rw [demoteActive_succ front (standing.sound.value?_of_mem hm)]
    exact Step.bind_of_ok (onLists_of_ok (s := s.stamped d) run)
  · ext1
    case active =>
      show lists'.values s.dir.active.list = rest
      rw [values, if_neg s.dir.active.other_list_ne.symm]
      show s.dir.activeEntries.erase d = rest
      rw [active, List.erase_cons_head]
    case stale =>
      show lists'.values s.dir.active.other.list = _
      rw [values, if_pos rfl]
      exact congrArg (d :: ·) (List.erase_of_not_mem off_stale)
    case entries => exact Entries.map_bare_stamp 0
    all_goals rfl
  · exact .of_modify rfl (f := fun entry => { entry with generation := 0 }) (fun _ => rfl)
      rfl rfl rfl rfl

/-- Moving the active entries over one by one. -/
theorem demoteActive_spec (fuel : Nat) : ∀ s : Opened, Standing s.dir.lists s.entries →
    s.dir.activeEntries.length = fuel →
    ∃ s', demoteActive fuel s = .ok () s' ∧ Standing s'.dir.lists s'.entries ∧
      s'.ledger = s.ledger.demote ∧ Relisted (· ∈ s.dir.activeEntries) s s' := by
  -- each round leaves one active entry less, and the fuel is their number
  induction fuel with
  | zero =>
    intro s standing length
    have none_active : s.dir.activeEntries = [] := List.length_eq_zero_iff.mp length
    have chain : s.dir.lists.chain s.dir.active.list = [] := List.map_eq_nil_iff.mp none_active
    refine ⟨s, ?_, standing, (Ledger.demote_nil none_active).symm, .of_entries rfl rfl rfl rfl⟩
    rw [demoteActive, Step.bind_of_ok (activeFront_run standing), chain]
    rfl
  | succ fuel ih =>
    intro s standing length
    cases active : s.dir.activeEntries with
    | nil =>
      rw [active] at length
      exact absurd length (by simp)
    | cons e rest =>
      obtain ⟨s₁, round, standing₁, ledger₁, relisted₁⟩ := demoteActive_round standing active fuel
      have active₁ : s₁.dir.activeEntries = rest := congrArg Ledger.active ledger₁
      rw [active] at length
      obtain ⟨s', run, standing', ledger, relisted⟩ :=
        ih s₁ standing₁ (active₁ ▸ Nat.succ.inj length)
      refine ⟨s', round.trans run, standing', ?_, ?_⟩
      · rw [ledger, ledger₁, ← Ledger.demote_cons active]
      · refine (relisted₁.mono fun d hd => ?_).trans (relisted.mono fun d hd => ?_)
        · exact hd ▸ List.mem_cons_self ..
        · exact List.mem_cons_of_mem _ (active₁ ▸ hd)

/-- Demoting by either way, without dropping the directory's generation. -/
theorem moveActive_spec (standing : Standing s.dir.lists s.entries) (expiry : Expiry) :
    ∃ s', (if expiry = .swap ∧ s.dir.staleCount = 0 then swapLists
        else demoteActive s.dir.activeCount) s = .ok () s' ∧
      Standing s'.dir.lists s'.entries ∧
      s'.ledger = (if expiry = .swap ∧ s.ledger.stale = [] then s.ledger.exchange
        else s.ledger.demote) ∧
      Relisted (· ∈ s.dir.activeEntries) s s' := by
  have none_stale : s.dir.staleCount = 0 ↔ s.ledger.stale = [] := by
    rw [standing.staleCount_eq]
    exact List.length_eq_zero_iff
  by_cases h : expiry = .swap ∧ s.ledger.stale = []
  · rw [if_pos ⟨h.1, none_stale.mpr h.2⟩, if_pos h]
    refine ⟨_, rfl, standing, ?_, .of_entries rfl rfl rfl rfl⟩
    ext1
    case stale => exact congrArg s.dir.lists.values (congrArg Side.list s.dir.active.other_other)
    all_goals rfl
  · rw [if_neg fun hs => h ⟨hs.1, none_stale.mp hs.2⟩, if_neg h]
    exact demoteActive_spec _ s standing standing.activeCount_eq.symm

/-- Demoting never stops, and leaves nothing active. -/
theorem expire_spec (standing : Standing s.dir.lists s.entries) (expiry : Expiry) :
    ∃ s', expire expiry s = .ok () s' ∧ Standing s'.dir.lists s'.entries ∧
      s'.ledger = s.ledger.expire expiry ∧ Relisted s.dir.Holds s s' := by
  let s₀ : Opened := { s with dir := { s.dir with generation := 0 } }
  obtain ⟨s₁, run, standing₁, ledger, relisted⟩ :=
    moveActive_spec (s := s₀) standing expiry
  have moved : ({ s₁ with tally := s₁.tally.addExpiration } : Opened).ledger =
      s.ledger.expire expiry := by
    have parts : ({ s₁ with tally := s₁.tally.addExpiration } : Opened).ledger =
      { s₁.ledger with tally := s₁.ledger.tally.addExpiration } := rfl
    rw [parts]
    by_cases h : expiry = .swap ∧ s.ledger.stale = []
    · have h₀ : expiry = .swap ∧ s₀.ledger.stale = [] := h
      rw [if_pos h₀] at ledger
      rw [ledger, Ledger.expire, if_pos h]
      rfl
    · have h₀ : ¬ (expiry = .swap ∧ s₀.ledger.stale = []) := h
      rw [if_neg h₀] at ledger
      rw [ledger, Ledger.expire, if_neg h]
      rfl
  have none_active : s₁.dir.activeCount = 0 := by
    rw [standing₁.activeCount_eq, List.length_eq_zero_iff]
    exact (congrArg Ledger.active moved).trans Ledger.active_expire
  refine ⟨{ s₁ with tally := s₁.tally.addExpiration }, ?_, standing₁, moved, ?_⟩
  · have rest : (do editTally Tally.addExpiration; requireNoActive) s₁ =
        .ok () { s₁ with tally := s₁.tally.addExpiration } := by
      rw [editTally_bind, requireNoActive, Step.get_bind]
      simp only [none_active]
      rfl
    rw [expire, editDir_bind, Step.get_bind]
    by_cases h : expiry = .swap ∧ s₀.dir.staleCount = 0
    · rw [if_pos h] at run ⊢
      exact (Step.bind_of_ok run).trans rest
    · rw [if_neg h] at run ⊢
      exact (Step.bind_of_ok run).trans rest
  · have first : Relisted s.dir.Holds s s₁ :=
      { relisted with apart := fun d hd => relisted.apart d fun h => hd (.inl h) }
    exact first.trans (.of_entries rfl rfl rfl rfl)

/-! ## Confirming -/

/-- What `confirm` may be told of the node of an entry: the node it is at, or that it is new. -/
def At (s : Opened) (e : Nat) : Option Nat → Prop
  | some n => ∃ l, (n, e) ∈ s.dir.lists.chain l
  | none => ¬ s.dir.Holds e ∧ e < s.entries.size

theorem holds_of_mem (standing : Standing s.dir.lists s.entries) {l : Nat}
    (hm : (n, e) ∈ s.dir.lists.chain l) : s.dir.Holds e := by
  have listed : e ∈ s.dir.lists.values l := SlotLists.mem_values.mpr ⟨n, hm⟩
  rcases s.dir.active.eq_or_other (standing.values_lt listed) with rfl | rfl
  · exact .inl listed
  · exact .inr listed

/-- An entry at a node is one the directory holds. -/
theorem At.isSome_iff (standing : Standing s.dir.lists s.entries) {node : Option Nat}
    (at_node : s.At e node) : node.isSome ↔ s.dir.Holds e := by
  cases node with
  | none => exact ⟨fun h => absurd h (by decide), fun h => absurd h at_node.1⟩
  | some n =>
    obtain ⟨l, hm⟩ := at_node
    exact ⟨fun _ => holds_of_mem standing hm, fun _ => rfl⟩

/-- Putting a new entry on a list. -/
theorem enlist_spec (standing : Standing s.dir.lists s.entries) (new : ¬ s.dir.Holds e)
    (he : e < s.entries.size) (side : Side) :
    ∃ s', enlist e side s = .ok () s' ∧ Standing s'.dir.lists s'.entries ∧
      (∀ k, s'.dir.lists.values k =
        if k = side.list then e :: s.dir.lists.values k else s.dir.lists.values k) ∧
      (∀ active stale, s'.dir.activeEntries = active → s'.dir.staleEntries = stale →
        s'.ledger = { s.ledger with active, stale }) ∧
      s'.dir.active = s.dir.active ∧ Relisted (· = e) s s' := by
  have off : ∀ l, e ∉ s.dir.lists.values l := by
    intro l hl
    obtain ⟨n, hm⟩ := SlotLists.mem_values.mp hl
    exact new (holds_of_mem standing hm)
  obtain ⟨n, lists', run, standing', values⟩ := standing.push he off side.list_lt
  refine ⟨{ s with
      dir := { s.dir with lists := lists' }
      entries := s.entries.modify e fun entry => { entry with dirNode := some n } },
    ?_, standing', values, ?_, rfl, ?_⟩
  · rw [enlist, Step.bind_of_ok (onLists_of_ok run)]
    rfl
  · rintro active stale rfl rfl
    ext1
    case entries =>
      exact Entries.map_bare_modify_links (f := fun entry => { entry with dirNode := some n })
        fun _ => rfl
    all_goals rfl
  · exact .of_modify rfl (f := fun entry => { entry with dirNode := some n }) (fun _ => rfl)
      rfl rfl rfl rfl

/-- A new entry is put with the active ones. -/
theorem enlist_active (standing : Standing s.dir.lists s.entries) (new : ¬ s.dir.Holds e)
    (he : e < s.entries.size) :
    ∃ s', enlist e s.dir.active s = .ok () s' ∧ Standing s'.dir.lists s'.entries ∧
      s'.ledger = { s.ledger with active := e :: s.ledger.active } ∧ Relisted (· = e) s s' := by
  obtain ⟨s', run, standing', values, ledger, side, relisted⟩ :=
    enlist_spec standing new he s.dir.active
  refine ⟨s', run, standing', ledger _ _ ?_ ?_, relisted⟩
  · rw [Directory.activeEntries, side, values, if_pos rfl]
    rfl
  · rw [Directory.staleEntries, side, values, if_neg s.dir.active.other_list_ne]
    rfl

/-- A new entry is put with the stale ones. -/
theorem enlist_stale (standing : Standing s.dir.lists s.entries) (new : ¬ s.dir.Holds e)
    (he : e < s.entries.size) :
    ∃ s', enlist e s.dir.active.other s = .ok () s' ∧ Standing s'.dir.lists s'.entries ∧
      s'.ledger = { s.ledger with stale := e :: s.ledger.stale } ∧ Relisted (· = e) s s' := by
  obtain ⟨s', run, standing', values, ledger, side, relisted⟩ :=
    enlist_spec standing new he s.dir.active.other
  refine ⟨s', run, standing', ledger _ _ ?_ ?_, relisted⟩
  · rw [Directory.activeEntries, side, values, if_neg s.dir.active.other_list_ne.symm]
    rfl
  · rw [Directory.staleEntries, side, values, if_pos rfl]
    rfl

/-- An entry that is listed already goes to the front of the active ones. -/
theorem moveToFront_active (standing : Standing s.dir.lists s.entries) {l : Nat}
    (hm : (n, e) ∈ s.dir.lists.chain l) :
    ∃ s', onLists (SlotLists.moveToFront n s.dir.active.list) s = .ok () s' ∧
      Standing s'.dir.lists s'.entries ∧
      s'.ledger = { s.ledger with
        active := e :: s.ledger.active.erase e
        stale := s.ledger.stale.erase e } ∧
      Relisted (· = e) s s' := by
  obtain ⟨lists', run, standing', values⟩ := standing.move hm s.dir.active.list_lt
  refine ⟨_, onLists_of_ok run, standing', ?_, .of_entries rfl rfl rfl rfl⟩
  ext1
  case active => exact (values _).trans (if_pos rfl)
  case stale => exact (values _).trans (if_neg s.dir.active.other_list_ne)
  all_goals rfl

/-- Stamping an entry. -/
theorem ledger_stamp (s : Opened) (e : Nat) (generation : UInt64) (log : Log)
    (keys : log.keys = s.log.keys) :
    ({ s with
      entries := s.entries.modify e fun entry => { entry with generation }, log } : Opened).ledger =
      s.ledger.stamp e generation := by
  ext1
  case entries => exact Entries.map_bare_stamp generation
  case keys => exact keys
  all_goals rfl

/-- Stamping an entry, for whatever else is recorded. -/
theorem relisted_stamp (s : Opened) (e : Nat) (generation : UInt64) (log : Log) :
    Relisted (· = e) s { s with
      entries := s.entries.modify e fun entry => { entry with generation }, log } :=
  .of_modify rfl (f := fun entry => { entry with generation }) (fun _ => rfl) rfl rfl rfl rfl

/-- During an update: to the front of the active entries, with the generation of the update. -/
theorem renew_spec (standing : Standing s.dir.lists s.entries) {node : Option Nat}
    (at_node : s.At e node) (expiry : Expiry) (scanning : s.dir.updating = true) :
    ∃ s', confirm expiry e node s = .ok () s' ∧ Standing s'.dir.lists s'.entries ∧
      s'.ledger = s.ledger.renew e ∧ Relisted (· = e) s s' := by
  let s₁ : Opened := { s with
    entries := s.entries.modify e fun entry => { entry with generation := s.dir.generation }
    log := s.log.emit (.confirmed s.dir.id (s.entries.entry e)) }
  have standing₁ : Standing s₁.dir.lists s₁.entries := standing.stamp e s.dir.generation
  have ledger₁ : s₁.ledger = s.ledger.stamp e s.dir.generation :=
    ledger_stamp s e s.dir.generation _ rfl
  have first : Relisted (· = e) s s₁ := relisted_stamp s e s.dir.generation _
  rw [confirm, Step.get_bind, entry_bind, if_pos scanning, emit_bind, editEntry_bind]
  cases node with
  | some n =>
    obtain ⟨l, hm⟩ := at_node
    obtain ⟨s', run, standing', ledger, second⟩ := moveToFront_active standing₁ hm
    refine ⟨s', run, standing', ?_, first.trans second⟩
    rw [ledger, ledger₁]
    rfl
  | none =>
    obtain ⟨new, he⟩ := at_node
    obtain ⟨s', run, standing', ledger, second⟩ :=
      enlist_active standing₁ new (by rw [first.size]; exact he)
    refine ⟨s', run, standing', ?_, first.trans second⟩
    have off_active : s.ledger.active.erase e = s.ledger.active :=
      List.erase_of_not_mem fun h => new (.inl h)
    have off_stale : s.ledger.stale.erase e = s.ledger.stale :=
      List.erase_of_not_mem fun h => new (.inr h)
    rw [ledger, ledger₁, Ledger.renew, off_active, off_stale]
    rfl

/-- In doubt: everything is demoted, and the entry is parked unless it is listed already. -/
theorem park_spec (standing : Standing s.dir.lists s.entries) {node : Option Nat}
    (at_node : s.At e node) (expiry : Expiry) (idle : ¬ s.dir.updating = true)
    (doubt : s.dir.staleCount ≠ 0 ∨ (s.entries.entry e).generation ≠ s.dir.generation) :
    ∃ s', confirm expiry e node s = .ok () s' ∧ Standing s'.dir.lists s'.entries ∧
      s'.ledger = ((s.ledger.expire expiry).stamp e 0).park e ∧
      Relisted (fun d => s.dir.Holds d ∨ d = e) s s' := by
  let s₀ : Opened := { s with
    log := s.log.emit (.inconsistent s.dir.id s.dir.generation (s.entries.entry e)) }
  obtain ⟨s₁, run₁, standing₁, ledger₁, first⟩ := expire_spec (s := s₀) standing expiry
  let s₂ : Opened :=
    { s₁ with entries := s₁.entries.modify e fun entry => { entry with generation := 0 } }
  have standing₂ : Standing s₂.dir.lists s₂.entries := standing₁.stamp e 0
  have ledger₂ : s₂.ledger = (s.ledger.expire expiry).stamp e 0 := by
    rw [ledger_stamp s₁ e 0 s₁.log rfl, ledger₁]
    rfl
  have holds₂ : s₂.ledger.Holds e ↔ s.dir.Holds e := by
    rw [ledger₂, Ledger.holds_stamp, Ledger.holds_expire]
    exact Iff.rfl
  have second : Relisted (fun d => s.dir.Holds d ∨ d = e) s s₂ := by
    have before : Relisted (fun d => s.dir.Holds d ∨ d = e) s s₁ :=
      { first with apart := fun d hd => first.apart d fun h => hd (.inl h) }
    exact before.trans ((relisted_stamp s₁ e 0 s₁.log).mono fun d hd => .inr hd)
  rw [confirm, Step.get_bind, entry_bind, if_neg idle, if_pos doubt, emit_bind,
    Step.bind_of_ok run₁, editEntry_bind, ← ledger₂]
  cases node with
  | some n =>
    refine ⟨s₂, rfl, standing₂, ?_, second⟩
    rw [Ledger.park, if_pos (holds₂.mpr ((at_node.isSome_iff standing).mp rfl))]
  | none =>
    obtain ⟨new, he⟩ := at_node
    have new₂ : ¬ s₂.ledger.Holds e := fun h => new (holds₂.mp h)
    obtain ⟨s', run, standing', ledger, third⟩ :=
      enlist_stale standing₂ new₂ (by rw [second.size]; exact he)
    refine ⟨s', run, standing', ?_, second.trans (third.mono fun d hd => .inr hd)⟩
    rw [ledger, Ledger.park, if_neg new₂]

/-- In agreement: the entry joins the active ones unless it is listed already. -/
theorem enrol_spec (standing : Standing s.dir.lists s.entries) {node : Option Nat}
    (at_node : s.At e node) (expiry : Expiry) (idle : ¬ s.dir.updating = true)
    (agree : ¬ (s.dir.staleCount ≠ 0 ∨ (s.entries.entry e).generation ≠ s.dir.generation)) :
    ∃ s', confirm expiry e node s = .ok () s' ∧ Standing s'.dir.lists s'.entries ∧
      s'.ledger = s.ledger.enrol e ∧ Relisted (· = e) s s' := by
  rw [confirm, Step.get_bind, entry_bind, if_neg idle, if_neg agree]
  cases node with
  | some n =>
    refine ⟨s, rfl, standing, ?_, .of_entries rfl rfl rfl rfl⟩
    have held : s.ledger.Holds e := (at_node.isSome_iff standing).mp rfl
    rw [Ledger.enrol, if_pos held]
  | none =>
    obtain ⟨new, he⟩ := at_node
    obtain ⟨s', run, standing', ledger, relisted⟩ := enlist_active standing new he
    have off : ¬ s.ledger.Holds e := new
    refine ⟨s', run, standing', ?_, relisted⟩
    rw [ledger, Ledger.enrol, if_neg off]

/-- Confirming never stops, and puts the entry where the state of the directory wants it. -/
theorem confirm_spec (standing : Standing s.dir.lists s.entries) {node : Option Nat}
    (at_node : s.At e node) (expiry : Expiry) :
    ∃ s', confirm expiry e node s = .ok () s' ∧ Standing s'.dir.lists s'.entries ∧
      s'.ledger = s.ledger.confirm expiry e ∧ Relisted (fun d => s.dir.Holds d ∨ d = e) s s' := by
  have wide : ∀ d, d = e → s.dir.Holds d ∨ d = e := fun d hd => .inr hd
  -- the code counts the stale entries where the ledger looks at them
  have doubt_iff : (s.dir.staleCount ≠ 0 ∨ (s.entries.entry e).generation ≠ s.dir.generation) ↔
      (s.ledger.stale ≠ [] ∨ (s.ledger.entries.entry e).generation ≠ s.ledger.generation) := by
    refine or_congr (not_congr ?_) (not_congr ?_)
    · rw [standing.staleCount_eq]
      exact List.length_eq_zero_iff
    · show _ ↔ (Entries.entry (s.entries.map Entry.bare) e).generation = s.dir.generation
      rw [Entries.entry_map_bare]
      exact Iff.rfl
  rw [Ledger.confirm]
  by_cases scanning : s.dir.updating = true
  · obtain ⟨s', run, standing', ledger, relisted⟩ := renew_spec standing at_node expiry scanning
    have scanning' : s.ledger.updating = true := scanning
    rw [if_pos scanning']
    exact ⟨s', run, standing', ledger, relisted.mono wide⟩
  · have idle' : ¬ s.ledger.updating = true := scanning
    rw [if_neg idle']
    by_cases doubt : s.dir.staleCount ≠ 0 ∨ (s.entries.entry e).generation ≠ s.dir.generation
    · rw [if_pos (doubt_iff.mp doubt)]
      exact park_spec standing at_node expiry scanning doubt
    · obtain ⟨s', run, standing', ledger, relisted⟩ :=
        enrol_spec standing at_node expiry scanning doubt
      rw [if_neg fun h => doubt (doubt_iff.mpr h)]
      exact ⟨s', run, standing', ledger, relisted.mono wide⟩

end Opened

end NameCache
