/-
  What a request does to key references.

  A reference is held by an entry, from its making until it is destroyed, or by a caller who took
  one.  `Command.Dealing` is everything a request can do to them: an insertion makes one entry, an
  end of an update, a purge or a drop destroys some, a caller takes one reference or gives one back,
  and whatever else is asked touches none.  From that each request is `World.Balanced`: it records
  the taking of every reference that it begins and the giving back of every one that it ends, and
  nothing else.
-/
import NameCache.Proofs.Directory.Keys
import NameCache.Proofs.Session.Answers

namespace NameCache

/-- The holders of key references. -/
inductive Holder where
  | entry
  | caller
  deriving DecidableEq, Repr

namespace World

/-- How many references the holders of a kind were ever given. -/
def handed (w : World) : Holder → Nat
  | .entry => w.entries.size
  | .caller => w.held.size

/-- The label of a reference, as long as it is out. -/
def out (w : World) : Holder → Nat → Option String
  | .entry, e => (w.entries.entry e).key
  | .caller, h => w.held? h

/-- The references handed out between two worlds. -/
def begun (w w' : World) (k : Holder) : List Nat :=
  List.range' (w.handed k) (w'.handed k - w.handed k)

/-- The references of a world that are not out in a later one any more. -/
def ended (w w' : World) (k : Holder) : List Nat :=
  (List.range (w.handed k)).filter fun n => (w.out k n).isSome && (w'.out k n).isNone

/-- The events of taking the references handed out between two worlds. -/
def acquires (w w' : World) (k : Holder) : List KeyEvent :=
  ((w.begun w' k).map (w'.out k)).filterMap (·.map .acquired)

/-- The events of giving back the references that are not out any more. -/
def releases (w w' : World) (k : Holder) : List KeyEvent :=
  ((w.ended w' k).map (w.out k)).filterMap (·.map .released)

/-- The key events from one world to the next are those of the references handed out and given back
    between them, and no reference comes back or changes. -/
structure Balanced (w w' : World) (keys : List KeyEvent) : Prop where
  log : w'.log.keys = keys.reverse ++ w.log.keys
  grows : ∀ k, w.handed k ≤ w'.handed k
  lasting : ∀ k n, n < w.handed k → w'.out k n = w.out k n ∨ w'.out k n = none
  given : ∀ k, ∀ n ∈ w.begun w' k, (w'.out k n).isSome = true
  events : keys.Perm (w.acquires w' .entry ++ w.acquires w' .caller ++
    (w.releases w' .entry ++ w.releases w' .caller))

end World

/-- Everything a command can do to key references. -/
inductive Command.Dealing (w : World) (c : Command) (w' : World) : Prop
  /-- An insertion makes an entry. -/
  | made {d : Nat} {dir : Directory} {label : String} {name encname : Bytes}
    (command : c = .within d (.insert label name encname)) (here : w.directory? d = some dir)
    (outcome : Deed.outcome ⟨w.opened dir, .insert label name encname⟩ =
      some (.made w.entries.size))
    (size : w'.entries.size = w.entries.size + 1)
    (key : (w'.entries.entry w.entries.size).key = some label)
    (kept : ∀ e, e < w.entries.size → (w'.entries.entry e).key = (w.entries.entry e).key)
    (held : w'.held = w.held) (log : w'.log.keys = .acquired label :: w.log.keys)
  /-- Some entries are destroyed, in order, or none. -/
  | destroyed (es : List Nat) (nodup : es.Nodup)
    (live : ∀ e ∈ es, (w.entries.entry e).live = true)
    (size : w'.entries.size = w.entries.size)
    (kept : ∀ e, e < w.entries.size →
      (w'.entries.entry e).key = if e ∈ es then none else (w.entries.entry e).key)
    (held : w'.held = w.held)
    (log : w'.log.keys = (w.entries.releases es).reverse ++ w.log.keys)
  /-- A caller takes a reference to the key of a live entry. -/
  | taken {e : Nat} {label : String} (command : c = .acquireKey e) (known : e < w.entries.size)
    (key : (w.entries.entry e).key = some label) (entries : w'.entries = w.entries)
    (held : w'.held = w.held.push (some label)) (log : w'.log.keys = .acquired label :: w.log.keys)
  /-- A caller gives a reference back. -/
  | returned {h : Nat} {label : String} (command : c = .releaseKey h)
    (out : w.held? h = some label) (entries : w'.entries = w.entries)
    (held : w'.held = w.held.setIfInBounds h none)
    (log : w'.log.keys = .released label :: w.log.keys)

variable {w w' : World} {past : List Moment} {dir : Directory} {d : Nat} {c : Command}
  {k : Holder} {recorded : List KeyEvent} {deeds : List Deed} {s s' : Opened} {others : Nat → Prop}

/-! ## Every command is such a dealing -/

namespace Command.Dealing

/-- No reference is touched. -/
theorem none (size : w'.entries.size = w.entries.size)
    (kept : ∀ e, e < w.entries.size → (w'.entries.entry e).key = (w.entries.entry e).key)
    (held : w'.held = w.held) (log : w'.log.keys = w.log.keys) : c.Dealing w w' :=
  .destroyed [] List.nodup_nil (fun _ h => absurd h List.not_mem_nil) size
    (fun e known => (kept e known).trans (if_neg List.not_mem_nil).symm) held log

/-- Nor is one where the entries, the references of callers and the key events are the same. -/
theorem of_same (entries : w'.entries = w.entries) (held : w'.held = w.held)
    (log : w'.log.keys = w.log.keys) : c.Dealing w w' :=
  .none (congrArg Array.size entries) (fun e _ => by rw [entries]) held log

end Command.Dealing

/-- What an action destroys is live. -/
theorem Opened.Sound.live_destroyed (sound : s.Sound others) (action : Action) :
    ∀ e ∈ s.ledger.destroyed action, (s.entries.entry e).live = true :=
  fun _ he => sound.holds_live (Ledger.holds_of_destroyed he)

/-- Lookups and confirmations touch no reference. -/
theorem Chain.keeps_keys (chain : Chain s deeds s') (sound : s.Sound others)
    (calm : ∀ deed ∈ deeds, (∃ encname, deed.action = .lookupEncname encname) ∨
      ∃ e, deed.action = .update e) :
    s'.entries.size = s.entries.size ∧ s'.log.keys = s.log.keys ∧
      ∀ e, e < s.entries.size → (s'.entries.entry e).key = (s.entries.entry e).key := by
  induction chain with
  | nil => exact ⟨rfl, rfl, fun _ _ => rfl⟩
  | @cons deeds s₁ action chain ih =>
    obtain ⟨this, earlier⟩ := List.forall_mem_cons.mp calm
    obtain ⟨size, log, kept⟩ := ih earlier
    have nothing : s₁.ledger.destroyed action = [] := by
      rcases this with ⟨encname, rfl⟩ | ⟨e, rfl⟩ <;> rfl
    rcases Deed.references ⟨s₁, action⟩ (chain.leads sound).1 with
      ⟨label, name, encname, insertion, -⟩ | ⟨-, size₁, kept₁, log₁⟩
    · replace insertion : action = .insert label name encname := insertion
      rcases this with ⟨encname, h⟩ | ⟨e, h⟩
      · exact absurd (insertion.symm.trans h) (by simp)
      · exact absurd (insertion.symm.trans h) (by simp)
    · replace log₁ : (Deed.after ⟨s₁, action⟩).log.keys =
        (s₁.entries.releases (s₁.ledger.destroyed action)).reverse ++ s₁.log.keys := log₁
      rw [nothing] at log₁
      refine ⟨size₁.trans size, log₁.trans log, fun e known => ?_⟩
      have same := kept₁ e (size.symm ▸ known)
      replace same : ((Deed.after ⟨s₁, action⟩).entries.entry e).key =
        if e ∈ s₁.ledger.destroyed action then Option.none else (s₁.entries.entry e).key := same
      rw [nothing, if_neg List.not_mem_nil] at same
      exact same.trans (kept e known)

/-- An action on a directory makes an entry or destroys some. -/
theorem Command.dealing_within (sound : w.Sound) (here : w.directory? d = some dir)
    (action : Action) : (Command.within d action).Dealing w
      (w.put d (Deed.after ⟨w.opened dir, action⟩)) := by
  have opened := sound.hosts.opened here
  rcases Deed.references ⟨w.opened dir, action⟩ opened with
    ⟨label, name, encname, rfl, outcome, size, key, kept, log⟩ | ⟨-, size, kept, log⟩
  · exact .made rfl here outcome size key kept rfl log
  · exact .destroyed ((w.opened dir).ledger.destroyed action)
      (Ledger.nodup_destroyed opened.ledger.toTidy action) (opened.live_destroyed action) size
      kept rfl log

/-- Whatever a command does is a dealing. -/
theorem Command.Passage.dealing (passage : c.Passage w w') (sound : w.Sound) : c.Dealing w w' := by
  cases passage with
  | quiet quiet _ => exact .of_same quiet.entries quiet.held quiet.keys
  | taken command known key _ => exact .taken command known key rfl rfl rfl
  | given command held _ => exact .returned command held rfl rfl rfl
  | made quiet _ _ _ _ => exact .of_same quiet.entries quiet.held quiet.keys
  | @worked d dir s here chain _ =>
    rcases Command.deeds_cases here c with ⟨action, rfl, deeds⟩ | calm
    · rw [deeds] at chain
      obtain rfl : s = Deed.after ⟨w.opened dir, action⟩ := by
        cases chain with
        | cons action chain =>
          cases chain
          rfl
      exact Command.dealing_within sound here action
    · obtain ⟨size, log, kept⟩ := chain.keeps_keys (sound.hosts.opened here) calm
      exact .none size kept rfl log
  | @gone d dir s _ here _ _ _ purged quiet _ _ =>
    have opened := sound.hosts.opened here
    have tidy := opened.ledger.toTidy
    have entries : w'.entries = s.entries := quiet.entries
    have size : s.entries.size = w.entries.size := by
      rw [← Deed.size_ledger s, purged, Ledger.purge_eq, Ledger.size_dropAll]
      exact Deed.size_ledger (w.opened dir)
    refine .destroyed ((w.opened dir).ledger.destroyed .purge)
      (Ledger.nodup_destroyed tidy .purge) (opened.live_destroyed .purge)
      ((congrArg Array.size entries).trans size) (fun e _ => ?_) quiet.held ?_
    · rw [entries, ← s.key_ledger, purged, Ledger.key_purge, Opened.key_ledger]
      rfl
    · rw [quiet.keys, ← Entries.releases_map_bare]
      exact (congrArg Ledger.keys purged).trans (Ledger.keys_purge tidy)

/-! ## Every dealing is balanced -/

namespace World

/-- A reference that is out was handed out. -/
theorem lt_of_out {n : Nat} (out : (w.out k n).isSome = true) : n < w.handed k := by
  cases k with
  | entry => exact Entries.lt_of_live out
  | caller =>
    obtain ⟨label, held⟩ := Option.isSome_iff_exists.mp out
    replace held : (w.held[n]?).join = some label := held
    rw [Option.join_eq_some_iff] at held
    exact (Array.getElem?_eq_some_iff.mp held).1

theorem out_of_push {label : String} (held : w'.held = w.held.push (some label)) (n : Nat) :
    w'.out .caller n = if n = w.handed .caller then some label else w.out .caller n := by
  show (w'.held[n]?).join = _
  rw [held, Array.getElem?_push, apply_ite Option.join]
  rfl

theorem out_of_set {h : Nat} (held : w'.held = w.held.setIfInBounds h none)
    (known : h < w.held.size) (n : Nat) :
    w'.out .caller n = if n = h then none else w.out .caller n := by
  show (w'.held[n]?).join = _
  rw [held, Array.getElem?_setIfInBounds, if_pos known, apply_ite Option.join]
  by_cases same : h = n
  · rw [if_pos same, if_pos same.symm]
    rfl
  · rw [if_neg same, if_neg fun heq => same heq.symm]
    rfl

/-- What becomes of the references of one kind: one more may be handed out, under a label, and some
    of the others end. -/
structure Shifts (w w' : World) (k : Holder) (new : Option String) (es : List Nat) : Prop where
  handed : w'.handed k = w.handed k + new.toList.length
  given : ∀ label ∈ new, w'.out k (w.handed k) = some label
  nodup : es.Nodup
  was : ∀ n ∈ es, (w.out k n).isSome = true
  change : ∀ n, n < w.handed k → w'.out k n = if n ∈ es then none else w.out k n

namespace Shifts

variable {new : Option String} {es : List Nat}

/-- Nothing becomes of them if they are as they were. -/
theorem still (handed : w'.handed k = w.handed k)
    (same : ∀ n, n < w.handed k → w'.out k n = w.out k n) : w.Shifts w' k none [] where
  handed := handed
  given := by simp
  nodup := List.nodup_nil
  was := by simp
  change := fun n known => (same n known).trans (if_neg List.not_mem_nil).symm

theorem begun_eq (shifts : w.Shifts w' k new es) :
    w.begun w' k = List.range' (w.handed k) new.toList.length := by
  rw [begun, shifts.handed, Nat.add_sub_cancel_left]

theorem acquires_eq (shifts : w.Shifts w' k new es) :
    w.acquires w' k = new.toList.map .acquired := by
  rw [acquires, shifts.begun_eq]
  cases new with
  | none => rfl
  | some label =>
    show [w'.out k (w.handed k)].filterMap _ = _
    rw [shifts.given label rfl]
    rfl

theorem given_of_begun (shifts : w.Shifts w' k new es) :
    ∀ n ∈ w.begun w' k, (w'.out k n).isSome = true := by
  intro n begun
  rw [shifts.begun_eq] at begun
  cases new with
  | none => exact absurd begun List.not_mem_nil
  | some label =>
    rw [List.mem_singleton.mp begun, shifts.given label rfl]
    rfl

theorem ended_perm (shifts : w.Shifts w' k new es) : (w.ended w' k).Perm es := by
  refine (List.perm_ext_iff_of_nodup (List.nodup_range.filter _) shifts.nodup).mpr fun n => ?_
  rw [List.mem_filter, List.mem_range, Bool.and_eq_true]
  constructor
  · rintro ⟨known, out, gone⟩
    refine Decidable.byContradiction fun off => ?_
    rw [shifts.change n known, if_neg off, Option.isNone_iff_eq_none] at gone
    rw [gone] at out
    exact Bool.false_ne_true out
  · intro listed
    have known := lt_of_out (shifts.was n listed)
    refine ⟨known, shifts.was n listed, ?_⟩
    rw [shifts.change n known, if_pos listed]
    rfl

theorem releases_perm (shifts : w.Shifts w' k new es) :
    (w.releases w' k).Perm ((es.map (w.out k)).filterMap (·.map .released)) :=
  (shifts.ended_perm.map _).filterMap _

end Shifts

/-- A step is balanced if its events are the taking of what is handed out and the giving back of
    what ends. -/
theorem Balanced.of_shifts {new new' : Option String} {es es' : List Nat}
    (entries : w.Shifts w' .entry new es) (callers : w.Shifts w' .caller new' es')
    (log : w'.log.keys = recorded.reverse ++ w.log.keys)
    (events : recorded = new.toList.map .acquired ++ new'.toList.map .acquired ++
      ((es.map (w.out .entry)).filterMap (·.map .released) ++
        (es'.map (w.out .caller)).filterMap (·.map .released))) : w.Balanced w' recorded := by
  have shifts : ∀ k, ∃ new es, w.Shifts w' k new es := by
    rintro (_ | _)
    · exact ⟨_, _, entries⟩
    · exact ⟨_, _, callers⟩
  constructor
  case log => exact log
  case grows =>
    intro k
    obtain ⟨_, _, shift⟩ := shifts k
    rw [shift.handed]
    exact Nat.le_add_right _ _
  case lasting =>
    intro k n known
    obtain ⟨_, _, shift⟩ := shifts k
    rw [shift.change n known]
    split
    · exact .inr rfl
    · exact .inl rfl
  case given =>
    intro k
    obtain ⟨_, _, shift⟩ := shifts k
    exact shift.given_of_begun
  case events =>
    rw [events, entries.acquires_eq, callers.acquires_eq]
    exact .append_left _ (entries.releases_perm.symm.append callers.releases_perm.symm)

end World

/-- What a command does to references, its events account for. -/
theorem Command.Dealing.balanced (dealing : c.Dealing w w') : ∃ keys, w.Balanced w' keys := by
  have entries_still : w'.entries = w.entries → w.Shifts w' .entry .none [] := fun entries =>
    .still (congrArg Array.size entries) fun n _ =>
      congrArg (fun entries => (Entries.entry entries n).key) entries
  have callers_still : w'.held = w.held → w.Shifts w' .caller .none [] := fun held =>
    .still (congrArg Array.size held) fun n _ => congrArg (fun held => (held[n]?).join) held
  cases dealing with
  | @made _ _ label _ _ _ _ _ size key kept held log =>
    have entries : w.Shifts w' .entry (some label) [] :=
      { handed := size
        given := fun _ new => by
          obtain rfl := Option.mem_some.mp new
          exact key
        nodup := List.nodup_nil
        was := by simp
        change := fun e known => (kept e known).trans (if_neg List.not_mem_nil).symm }
    exact ⟨[.acquired label], .of_shifts entries (callers_still held) log rfl⟩
  | destroyed es nodup live size kept held log =>
    have entries : w.Shifts w' .entry .none es :=
      { handed := size
        given := by simp
        nodup := nodup
        was := live
        change := kept }
    exact ⟨_, .of_shifts entries (callers_still held) log (List.append_nil _).symm⟩
  | @taken _ label _ _ _ entries held log =>
    have callers : w.Shifts w' .caller (some label) [] :=
      { handed := (congrArg Array.size held).trans (Array.size_push _)
        given := fun _ new => by
          obtain rfl := Option.mem_some.mp new
          exact (World.out_of_push held _).trans (if_pos rfl)
        nodup := List.nodup_nil
        was := by simp
        change := fun n known => by
          rw [World.out_of_push held, if_neg (Nat.ne_of_lt known), if_neg List.not_mem_nil] }
    exact ⟨[.acquired label], .of_shifts (entries_still entries) callers log rfl⟩
  | @returned h label _ out entries held log =>
    have known : h < w.held.size := World.lt_of_out (k := .caller) (Option.isSome_of_eq_some out)
    have callers : w.Shifts w' .caller .none [h] :=
      { handed := (congrArg Array.size held).trans Array.size_setIfInBounds
        given := by simp
        nodup := List.pairwise_singleton _ h
        was := List.forall_mem_singleton.mpr (Option.isSome_of_eq_some out)
        change := fun n _ => by
          rw [World.out_of_set held known]
          by_cases same : n = h
          · rw [if_pos same, if_pos (List.mem_singleton.mpr same)]
          · rw [if_neg same, if_neg fun hn => same (List.mem_singleton.mp hn)] }
    refine ⟨[.released label], .of_shifts (entries_still entries) callers log ?_⟩
    show _ = [w.held? h].filterMap (·.map KeyEvent.released)
    rw [out]
    rfl

/-! ## What a request recorded -/

namespace Moment

variable (m : Moment)

/-- The key events of a request, the first one first. -/
def keys : List KeyEvent := (m.request.answer m.before).1.keys

/-- A request that is heard deals with references in one of the ways there are. -/
theorem dealing (sound : m.before.Sound) :
    (m.heard = true ∧ m.request.command.Passage m.before m.after ∧
      m.request.command.Dealing m.before m.after) ∨ m.after = m.before := by
  rcases m.passage sound with ⟨heard, passage⟩ | ⟨same, -⟩
  · exact .inl ⟨heard, passage, passage.dealing sound⟩
  · exact .inr same

/-- The key events of a request are those of the references that it begins and ends. -/
theorem balanced (sound : m.before.Sound) : m.before.Balanced m.after m.keys := by
  have balanced : ∃ keys, m.before.Balanced m.after keys := by
    rcases m.dealing sound with ⟨-, -, dealing⟩ | same
    · exact dealing.balanced
    · exact Command.Dealing.balanced (c := m.request.command)
        (.of_same (congrArg _ same) (congrArg _ same) (congrArg (·.log.keys) same))
  obtain ⟨keys, balanced⟩ := balanced
  have told : m.keys = keys := Log.keys_since balanced.log
  rwa [told]

end Moment

end NameCache
