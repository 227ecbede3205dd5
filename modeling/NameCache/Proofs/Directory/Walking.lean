/-
  A directory that demotes by a walk in every case, beside one that exchanges its lists when it can.

  Both start from the same state, on the same pool, and are given the same actions.  `Opened.Alike`
  is what can be told of them alike: everything but the order of the stale list, which of the two
  lists is the active one, and the generations carried by stale entries and by those that were
  destroyed while they were stale.  They answer alike too, but for the text of the fault that stops
  an update of such a destroyed entry, because that text shows the generation
  (`Twins.answer_alike`).

  The crux is that a lookup finds the same entry in both.  A lookup by plain name compares
  generations, but it is refused while anything is stale, and then what is held carries the same
  generation in both; the entries of others are as they were in both.
-/
import NameCache.Proofs.Directory.Demoting
import NameCache.Proofs.Directory.Finding

namespace NameCache

/-- Links do not show in the text of a fault. -/
theorem Fault.message_wrongDirectory_bare (x : Entry) (dir : UInt64) :
    (wrongDirectory x.bare dir).message = (wrongDirectory x dir).message := rfl

theorem Fault.message_destroyedEntry_bare (x : Entry) :
    (destroyedEntry x.bare).message = (destroyedEntry x).message := rfl

namespace Opened

/-! ## Runs -/

/-- What some actions leave, the latest first, if entries are demoted in the given way. -/
def leftBy (expiry : Expiry) (s : Opened) : List Action → Opened
  | [] => s
  | action :: earlier => Step.settled (action.run expiry) (s.leftBy expiry earlier)

/-- What an action answers, or the text of the fault that stops it. -/
def answerBy (expiry : Expiry) (s : Opened) (action : Action) : Except String Outcome :=
  match action.run expiry s with
  | .ok outcome _ => .ok outcome
  | .error fault _ => .error fault.message

/-- Answers can be compared. -/
instance : DecidableEq (Except String Outcome)
  | .ok a, .ok b => decidable_of_iff (a = b) ⟨congrArg Except.ok, Except.ok.inj⟩
  | .error a, .error b => decidable_of_iff (a = b) ⟨congrArg Except.error, Except.error.inj⟩
  | .ok _, .error _ => isFalse (by rintro ⟨⟩)
  | .error _, .ok _ => isFalse (by rintro ⟨⟩)

/-- What an action records of keys, the first event first. -/
def keysBy (expiry : Expiry) (s : Opened) (action : Action) : List KeyEvent :=
  ((Step.settled (action.run expiry) s).log.since s.log).1

/-- An entry was stale and is no more after an action. -/
def Fades (expiry : Expiry) (s : Opened) (action : Action) (e : Nat) : Prop :=
  e ∈ s.dir.staleEntries ∧ ((Step.settled (action.run expiry) s).entries.entry e).live = false

/-- An entry was destroyed by one of some actions, the latest first, while it was stale. -/
def Faded (expiry : Expiry) (s : Opened) : List Action → Nat → Prop
  | [], _ => False
  | action :: earlier, e =>
    s.Faded expiry earlier e ∨ (s.leftBy expiry earlier).Fades expiry action e

/-- What can be told of two states alike, given which entries faded. -/
structure Alike (faded : Nat → Prop) (s t : Opened) : Prop where
  id : t.dir.id = s.dir.id
  generation : t.dir.generation = s.dir.generation
  status : t.dir.status = s.dir.status
  activeCount : t.dir.activeCount = s.dir.activeCount
  staleCount : t.dir.staleCount = s.dir.staleCount
  length : t.dir.length = s.dir.length
  active : t.dir.activeEntries.map (fun e => (e, (t.entries.entry e).generation)) =
    s.dir.activeEntries.map fun e => (e, (s.entries.entry e).generation)
  stale : t.dir.staleEntries.Perm s.dir.staleEntries
  tally : t.tally = s.tally
  size : t.entries.size = s.entries.size
  /-- The same entries are live. -/
  live : ∀ e, (t.entries.entry e).live = (s.entries.entry e).live
  /-- And of each entry everything is the same but its links and its generation. -/
  entry : ∀ e, (t.entries.entry e).bare.unstamped = (s.entries.entry e).bare.unstamped
  stamp : ∀ e, e ∉ s.dir.staleEntries → ¬ faded e →
    (t.entries.entry e).generation = (s.entries.entry e).generation

/-! ## Two states with one origin -/

variable {others : Nat → Prop} {origin s t : Opened} {faded : Nat → Prop} {x y : Expiry} {e : Nat}

/-- Two states that were reached from one origin and agree. -/
structure Twins (others : Nat → Prop) (origin : Opened) (faded : Nat → Prop) (s t : Opened) :
    Prop where
  start : origin.Sound others
  sound : s.Sound others
  sound' : t.Sound others
  leads : origin.Leads s
  leads' : origin.Leads t
  agrees : Ledger.Agrees faded s.ledger t.ledger
  own : ∀ e, faded e → (s.entries.entry e).dir = s.dir.id

namespace Twins

theorem refl (start : origin.Sound others) : Twins others origin (fun _ => False) origin origin :=
  ⟨start, start, start, .refl _, .refl _, .refl _, fun _ h => h.elim⟩

/-- Whatever is asked of an entry, neither links nor generation matter to the answer. -/
theorem property (twins : Twins others origin faded s t) {β : Type} (p : Entry → β)
    (stamps : ∀ (x : Entry) (g : UInt64), p { x with generation := g } = p x)
    (links : ∀ x : Entry, p x.bare = p x) (e : Nat) :
    p (t.entries.entry e) = p (s.entries.entry e) := by
  have same := twins.agrees.property p stamps e
  rw [show t.ledger.entries.entry e = (t.entries.entry e).bare from Entries.entry_map_bare,
    show s.ledger.entries.entry e = (s.entries.entry e).bare from Entries.entry_map_bare] at same
  rwa [links, links] at same

theorem stamp_eq (twins : Twins others origin faded s t) (bright : ¬ faded e)
    (off : e ∉ s.dir.staleEntries) :
    (t.entries.entry e).generation = (s.entries.entry e).generation := by
  rw [← t.stampOf_ledger, ← s.stampOf_ledger]
  exact twins.agrees.stamp_eq bright off

theorem bare_eq (twins : Twins others origin faded s t) (bright : ¬ faded e)
    (off : e ∉ s.dir.staleEntries) : (t.entries.entry e).bare = (s.entries.entry e).bare :=
  Entry.eq_of_unstamped (twins.property (fun x => x.bare.unstamped) (fun _ _ => rfl)
    (fun _ => rfl) e) (twins.stamp_eq bright off)

theorem holds (twins : Twins others origin faded s t) : t.dir.Holds e ↔ s.dir.Holds e :=
  twins.agrees.holds

/-- What faded is not held. -/
theorem bright (twins : Twins others origin faded s t) (held : s.dir.Holds e) : ¬ faded e :=
  fun h => (twins.agrees.spent e h).2 held

/-- They are told alike. -/
theorem alike (twins : Twins others origin faded s t) : Alike faded s t where
  id := twins.agrees.id
  generation := twins.agrees.generation
  status := by
    have updating : t.dir.updating = s.dir.updating := twins.agrees.updating
    have stale : t.dir.staleCount = s.dir.staleCount := by
      rw [twins.sound.standing.staleCount_eq, twins.sound'.standing.staleCount_eq]
      exact twins.agrees.stale.length_eq
    rw [Directory.status, Directory.status, updating, stale]
  activeCount := by
    rw [twins.sound.standing.activeCount_eq, twins.sound'.standing.activeCount_eq]
    exact congrArg List.length twins.agrees.active
  staleCount := by
    rw [twins.sound.standing.staleCount_eq, twins.sound'.standing.staleCount_eq]
    exact twins.agrees.stale.length_eq
  length := by
    have active : t.dir.activeEntries = s.dir.activeEntries := twins.agrees.active
    have stale : t.dir.staleEntries.length = s.dir.staleEntries.length :=
      twins.agrees.stale.length_eq
    rw [twins.sound.standing.length_eq, twins.sound'.standing.length_eq, active, stale]
  active := by
    have active : t.dir.activeEntries = s.dir.activeEntries := twins.agrees.active
    rw [active]
    refine List.map_congr_left fun e he => ?_
    rw [twins.stamp_eq (twins.bright (.inl he)) (twins.sound.ledger.disjoint e he)]
  stale := twins.agrees.stale
  tally := twins.agrees.tally
  size := by
    rw [← Deed.size_ledger, ← Deed.size_ledger]
    exact twins.agrees.size
  live := twins.property Entry.live (fun _ _ => rfl) fun _ => rfl
  entry := twins.property (fun x => x.bare.unstamped) (fun _ _ => rfl) fun _ => rfl
  stamp := fun _ off bright => twins.stamp_eq bright off

/-! ## Lookups -/

/-- A search that accepts the same entries finds the same one. -/
theorem find_eq (twins : Twins others origin faded s t) (kind : NameKind) (text : Bytes)
    {p q : Nat → Bool}
    (only : ∀ e, p e = true → (s.entries.entry e).named s.dir.id kind text = true)
    (only' : ∀ e, q e = true → (t.entries.entry e).named t.dir.id kind text = true)
    (same : ∀ e, others e ∨ s.dir.Holds e → (q e = true ↔ p e = true)) :
    (t.pool.table kind).find (Digest.ofName t.dir.id text) q =
      (s.pool.table kind).find (Digest.ofName s.dir.id text) p := by
  obtain ⟨order, linked, sorted, members⟩ := twins.sound.linked
  obtain ⟨order', linked', sorted', members'⟩ := twins.sound'.linked
  rw [find_order linked kind text only, find_order linked' kind text only']
  refine find?_eq_of_descending sorted' sorted fun e => ?_
  rw [members, members', twins.holds]
  exact and_congr_right fun there => same e there

theorem named (twins : Twins others origin faded s t) (kind : NameKind) (text : Bytes) (e : Nat) :
    (t.entries.entry e).named t.dir.id kind text =
      (s.entries.entry e).named s.dir.id kind text := by
  have id : t.dir.id = s.dir.id := twins.agrees.id
  rw [id]
  refine twins.property (fun x => x.named s.dir.id kind text) (fun x g => ?_) (fun x => ?_) e
  · cases kind <;> rfl
  · cases kind <;> rfl

theorem findEncname_eq (twins : Twins others origin faded s t) (encname : Bytes) :
    t.findEncname encname = s.findEncname encname :=
  twins.find_eq .encrypted encname (fun _ accepted => accepted) (fun _ accepted => accepted)
    fun e _ => by rw [twins.named]

theorem findName_eq (twins : Twins others origin faded s t) (clean : s.dir.staleEntries = [])
    (name : Bytes) : t.findName name = s.findName name := by
  have generation : t.dir.generation = s.dir.generation := twins.agrees.generation
  refine twins.find_eq .plain name (fun e accepted => ?_) (fun e accepted => ?_) fun e there => ?_
  · exact (Bool.and_eq_true _ _ ▸ accepted).1
  · exact (Bool.and_eq_true _ _ ▸ accepted).1
  · have stamp : (t.entries.entry e).generation = (s.entries.entry e).generation := by
      rcases there with other | held
      · -- the entry of another directory is as it was at first
        obtain ⟨off, lt⟩ := twins.start.apart e other
        rw [twins.leads.apart e lt off, twins.leads'.apart e lt off]
      · exact twins.stamp_eq (twins.bright held) (by rw [clean]; exact List.not_mem_nil)
    show ((t.entries.entry e).named t.dir.id .plain name &&
      (t.entries.entry e).generation == t.dir.generation) = true ↔ _
    rw [twins.named, stamp, generation]

/-! ## One action -/

/-- An accepted action is answered alike. -/
theorem outcome_eq (twins : Twins others origin faded s t) {action : Action}
    {outcome outcome' : Outcome} {s' t' : Opened} (accepts : s.ledger.Accepts action)
    (run : action.run x s = .ok outcome s') (run' : action.run y t = .ok outcome' t')
    (answers : s.ledger.Answers x action outcome)
    (answers' : t.ledger.Answers y action outcome') : outcome' = outcome := by
  cases action with
  | lookupName name =>
    obtain ⟨idle, clean⟩ := accepts
    have accepts' := (twins.agrees.accepts_iff (.lookupName name)).mpr ⟨idle, clean⟩
    have looked := lookupName_run twins.sound.standing idle clean name
    have looked' := lookupName_run twins.sound'.standing accepts'.1 accepts'.2 name
    have found : outcome = .found (s.findName name) :=
      ((EStateM.Result.ok.inj (run.symm.trans (Step.bind_of_ok looked))).1)
    have found' : outcome' = .found (t.findName name) :=
      ((EStateM.Result.ok.inj (run'.symm.trans (Step.bind_of_ok looked'))).1)
    rw [found, found', twins.findName_eq clean]
  | lookupEncname encname =>
    have found : outcome = .found (s.findEncname encname) :=
      ((EStateM.Result.ok.inj (run.symm.trans (Step.bind_of_ok (lookupEncname_run encname s)))).1)
    have found' : outcome' = .found (t.findEncname encname) :=
      ((EStateM.Result.ok.inj (run'.symm.trans (Step.bind_of_ok (lookupEncname_run encname t)))).1)
    rw [found, found', twins.findEncname_eq]
  | _ =>
    refine twins.agrees.outcome_eq answers answers' fun found same => ?_
    exact absurd (same ▸ answers) (by rintro ⟨⟩)

/-- A refused one is stopped by the same fault, unless it shows a generation that faded. -/
theorem refused_alike (twins : Twins others origin faded s t) (action : Action)
    (refuses : ¬ s.ledger.Accepts action) : ∃ fault fault', action.run x s = .error fault s ∧
      action.run y t = .error fault' t ∧ (fault'.message = fault.message ∨
        ∃ e, action = .update e ∧ faded e ∧ fault = .destroyedEntry (s.entries.entry e) ∧
          fault' = .destroyedEntry (t.entries.entry e)) := by
  have id : t.dir.id = s.dir.id := twins.agrees.id
  obtain ⟨fault, objects, run⟩ := refused_spec twins.sound x action refuses
  cases objects with
  | length unfit =>
    exact ⟨_, _, run, Step.bind_of_error (insert_refused unfit y _ t), .inl rfl⟩
  | @foreign e other =>
    have other' : (t.entries.entry e).dir ≠ t.dir.id := by
      rw [id, twins.property Entry.dir (fun _ _ => rfl) fun _ => rfl]
      exact other
    have same : (t.entries.entry e).bare = (s.entries.entry e).bare :=
      twins.bare_eq (fun h => other (twins.own e h)) fun h => other (twins.sound.holds_own (.inr h))
    refine ⟨_, _, run, Step.bind_of_error (update_foreign other' y), .inl ?_⟩
    rw [id, ← Fault.message_wrongDirectory_bare, same, Fault.message_wrongDirectory_bare]
  | @gone e own free =>
    have own' : (t.entries.entry e).dir = t.dir.id := by
      rw [id, twins.property Entry.dir (fun _ _ => rfl) fun _ => rfl]
      exact own
    have free' : ¬ t.dir.Holds e := fun h => free (twins.holds.mp h)
    refine ⟨_, _, run, Step.bind_of_error (update_gone twins.sound' own' free' y), ?_⟩
    by_cases faded_entry : faded e
    · exact .inr ⟨e, rfl, faded_entry, rfl, rfl⟩
    · have same : (t.entries.entry e).bare = (s.entries.entry e).bare :=
        twins.bare_eq faded_entry fun h => free (.inr h)
      refine .inl ?_
      rw [← Fault.message_destroyedEntry_bare, same, Fault.message_destroyedEntry_bare]
  | updating scanning =>
    have scanning' : t.dir.updating = true := Eq.trans twins.agrees.updating scanning
    refine ⟨_, _, run, Step.bind_of_error (lookupName_updating scanning' _), .inl ?_⟩
    rw [id]
  | stale idle pending =>
    have idle' : t.dir.updating = false := Eq.trans twins.agrees.updating idle
    have pending' : t.dir.staleEntries ≠ [] := fun h => pending (twins.agrees.stale_nil.mp h)
    have length : t.dir.staleEntries.length = s.dir.staleEntries.length :=
      twins.agrees.stale.length_eq
    refine ⟨_, _, run, Step.bind_of_error (lookupName_stale twins.sound'.standing idle' pending' _),
      .inl ?_⟩
    rw [id, length]

/-- What an accepted action destroys while it is stale is what fades. -/
theorem fades_iff (twins : Twins others origin faded s t) {action : Action} {outcome : Outcome}
    {s' : Opened} (run : action.run x s = .ok outcome s')
    (ledger : s'.ledger = s.ledger.act x action outcome) :
    s.Fades x action e ↔ s.ledger.Fades action e := by
  rw [Fades, Step.settled_of_ok run]
  refine and_congr_right fun stale => ?_
  have held : s.dir.Holds e := .inr stale
  have known : e < s.ledger.entries.size := by
    rw [Deed.size_ledger]
    exact twins.sound.holds_lt held
  have key : ((s.ledger.act x action outcome).entries.entry e).key =
      if e ∈ s.ledger.destroyed action then none else (s.ledger.entries.entry e).key :=
    Ledger.key_act known
  rw [← ledger, s'.key_ledger, s.key_ledger] at key
  rw [Entry.live, key]
  have live := twins.sound.holds_live held
  by_cases gone : e ∈ s.ledger.destroyed action
  · rw [if_pos gone]
    exact iff_of_true rfl gone
  · rw [if_neg gone]
    refine iff_of_false ?_ gone
    rw [← Entry.live, live]
    decide

/-- Every action takes them further, with more that faded. -/
theorem act (twins : Twins others origin faded s t) (x y : Expiry) (action : Action) :
    Twins others origin (fun e => faded e ∨ s.Fades x action e)
      (Step.settled (action.run x) s) (Step.settled (action.run y) t) := by
  by_cases accepts : s.ledger.Accepts action
  · obtain ⟨outcome, s', run, sound, leads, answers, ledger⟩ :=
      accepted_spec twins.sound x action accepts
    obtain ⟨outcome', t', run', sound', leads', answers', ledger'⟩ :=
      accepted_spec twins.sound' y action ((twins.agrees.accepts_iff action).mpr accepts)
    have same : outcome' = outcome := twins.outcome_eq accepts run run' answers answers'
    have fades := fun e => twins.fades_iff (e := e) run ledger
    rw [Step.settled_of_ok run, Step.settled_of_ok run']
    refine ⟨twins.start, sound, sound', twins.leads.trans leads, twins.leads'.trans leads', ?_, ?_⟩
    · rw [ledger, ledger', same]
      have agrees := twins.agrees.act twins.sound.ledger.toTidy accepts x y outcome
      exact agrees.congr fun e => or_congr_right (fades e)
    · intro e h
      have known : e < s.entries.size ∧ (s.entries.entry e).dir = s.dir.id := by
        rcases h with was | now
        · refine ⟨?_, twins.own e was⟩
          rw [← Deed.size_ledger]
          exact (twins.agrees.spent e was).1
        · exact ⟨twins.sound.holds_lt (.inr now.1), twins.sound.holds_own (.inr now.1)⟩
      rw [(leads.names e known.1).1, leads.id]
      exact known.2
  · obtain ⟨fault, fault', run, run', -⟩ := twins.refused_alike (x := x) (y := y) action accepts
    have none_fades : ∀ e, ¬ s.Fades x action e := by
      rintro e ⟨stale, dead⟩
      rw [Step.settled_of_error run, twins.sound.holds_live (.inr stale)] at dead
      exact Bool.false_ne_true dead.symm
    rw [Step.settled_of_error run, Step.settled_of_error run']
    refine ⟨twins.start, twins.sound, twins.sound', twins.leads, twins.leads',
      twins.agrees.congr fun e => or_iff_left (none_fades e), fun e h => ?_⟩
    exact twins.own e (h.resolve_right (none_fades e))

/-- An action is answered alike, or it is an update of an entry that faded and both refuse it. -/
theorem answer_alike (twins : Twins others origin faded s t) (x y : Expiry) (action : Action) :
    t.answerBy y action = s.answerBy x action ∨ ∃ e, action = .update e ∧ faded e ∧
      s.answerBy x action = .error (Fault.destroyedEntry (s.entries.entry e)).message ∧
      t.answerBy y action = .error (Fault.destroyedEntry (t.entries.entry e)).message := by
  by_cases accepts : s.ledger.Accepts action
  · obtain ⟨outcome, s', run, -, -, answers, -⟩ := accepted_spec twins.sound x action accepts
    obtain ⟨outcome', t', run', -, -, answers', -⟩ :=
      accepted_spec twins.sound' y action ((twins.agrees.accepts_iff action).mpr accepts)
    left
    rw [answerBy, answerBy, run, run', twins.outcome_eq accepts run run' answers answers']
  · obtain ⟨fault, fault', run, run', told⟩ := twins.refused_alike (x := x) (y := y) action accepts
    rw [answerBy, answerBy, run, run']
    rcases told with same | ⟨e, update, was, rfl, rfl⟩
    · exact .inl (congrArg Except.error same)
    · exact .inr ⟨e, update, was, rfl, rfl⟩

/-- The same keys change hands. -/
theorem keys_alike (twins : Twins others origin faded s t) (x y : Expiry) (action : Action) :
    (t.keysBy y action).Perm (s.keysBy x action) := by
  by_cases accepts : s.ledger.Accepts action
  · obtain ⟨outcome, s', run, -, -, -, ledger⟩ := accepted_spec twins.sound x action accepts
    obtain ⟨outcome', t', run', -, -, -, ledger'⟩ :=
      accepted_spec twins.sound' y action ((twins.agrees.accepts_iff action).mpr accepts)
    have keys : s'.log.keys = (s.ledger.keyEvents action).reverse ++ s.log.keys :=
      (congrArg Ledger.keys ledger).trans (Ledger.keys_act twins.sound.ledger.toTidy)
    have keys' : t'.log.keys = (t.ledger.keyEvents action).reverse ++ t.log.keys :=
      (congrArg Ledger.keys ledger').trans (Ledger.keys_act twins.sound'.ledger.toTidy)
    rw [keysBy, keysBy, Step.settled_of_ok run, Step.settled_of_ok run', Log.keys_since keys,
      Log.keys_since keys']
    exact twins.agrees.keyEvents action
  · obtain ⟨fault, fault', run, run', -⟩ := twins.refused_alike (x := x) (y := y) action accepts
    have nothing : ∀ log : Log, (log.since log).1 = [] := fun log => Log.keys_since (by simp)
    rw [keysBy, keysBy, Step.settled_of_error run, Step.settled_of_error run', nothing, nothing]

end Twins

/-- Two runs of the same actions from one state, whichever way each of them demotes. -/
theorem twins_leftBy (sound : s.Sound others) (x y : Expiry) (actions : List Action) :
    Twins others s (s.Faded x actions) (s.leftBy x actions) (s.leftBy y actions) := by
  induction actions with
  | nil => exact .refl sound
  | cons action earlier ih => exact ih.act x y action

end Opened

end NameCache
