/-
  The references to keys balance, in every session.

  Every reference, of an entry or of a caller, is taken by exactly one request and given back by at
  most one, under the same label, and nothing else is ever recorded (`Session.references`).  For an
  entry the first is its insertion and the second is the request that destroys it.  So what was
  taken of a key is what was given back and what is still out, and without directories no entry
  holds anything.

  Each request is balanced on its own (`Moment.balanced`).  What is left is to add up: the requests
  that hand a reference out lie one after the other, because references are numbered in the order of
  their taking.
-/
import NameCache.Proofs.Session.Dealings
import NameCache.Proofs.Session.Placement

namespace NameCache

open Step

variable {w w' : World} {past : List Moment} {dir : Directory} {d e h n : Nat} {c : Command}
  {k : Holder} {keys : List KeyEvent} {label : String} {name encname : Bytes}

namespace World

theorem mem_begun : n ∈ w.begun w' k ↔ w.handed k ≤ n ∧ n < w'.handed k := by
  rw [begun, List.mem_range'_1]
  omega

theorem mem_ended :
    n ∈ w.ended w' k ↔ n < w.handed k ∧ (w.out k n).isSome = true ∧ w'.out k n = none := by
  rw [ended, List.mem_filter, List.mem_range, Bool.and_eq_true, Option.isNone_iff_eq_none]

theorem handed_ne_of_begun (begun : n ∈ w.begun w' k) : w'.handed k ≠ w.handed k := by
  have bounds := mem_begun.mp begun
  omega

theorem eq_of_begun (begun : n ∈ w.begun w' k) (next : w'.handed k = w.handed k + 1) :
    n = w.handed k := by
  have bounds := mem_begun.mp begun
  omega

theorem acquires_eq_nil (none : w.begun w' k = []) : w.acquires w' k = [] := by
  rw [acquires, none]
  rfl

theorem releases_eq_nil (none : w.ended w' k = []) : w.releases w' k = [] := by
  rw [releases, none]
  rfl

/-- How many references to a key the holders of a kind have. -/
def outstanding (w : World) (k : Holder) (label : String) : Nat :=
  (List.range (w.handed k)).countP fun n => w.out k n == some label

/-! ## What one step does to the counts -/

/-- Among the events of references, those under one label are counted by the references. -/
theorem count_events {f : String → KeyEvent} (injective : ∀ a b, f a = f b → a = b)
    (out : Nat → Option String) (l : List Nat) (label : String) :
    ((l.map out).filterMap (·.map f)).count (f label) = l.countP fun n => out n == some label := by
  rw [List.count, List.countP_filterMap, List.countP_map]
  refine List.countP_congr fun n _ => ?_
  show ((((out n).map f).map (· == f label)).getD false) = true ↔ _
  cases out n with
  | none => simp
  | some a =>
    show (f a == f label) = true ↔ (some a == some label) = true
    rw [beq_iff_eq, beq_iff_eq, Option.some_inj]
    exact ⟨injective a label, congrArg f⟩

/-- Events of another kind are not among them. -/
theorem count_events_of_ne {f : String → KeyEvent} {x : KeyEvent} (apart : ∀ a, f a ≠ x)
    (out : Nat → Option String) (l : List Nat) :
    ((l.map out).filterMap (·.map f)).count x = 0 := by
  refine List.count_eq_zero.mpr fun listed => ?_
  obtain ⟨a, -, told⟩ := List.mem_filterMap.mp listed
  obtain ⟨label, -, told⟩ := Option.map_eq_some_iff.mp told
  exact apart label told

/-- What is out later is what was out and did not end, and what was begun. -/
theorem Balanced.outstanding (balanced : w.Balanced w' keys) (k : Holder) (label : String) :
    w.outstanding k label + (w.begun w' k).countP (fun n => w'.out k n == some label) =
      w'.outstanding k label + (w.ended w' k).countP (fun n => w.out k n == some label) := by
  have later : List.range (w'.handed k) = List.range (w.handed k) ++ w.begun w' k := by
    have grown := (Nat.add_sub_cancel' (balanced.grows k)).symm
    rw [begun, List.range_eq_range', List.range_eq_range', grown, ← List.range'_append_1,
      Nat.add_sub_cancel_left, Nat.zero_add]
  have ended : (w.ended w' k).countP (fun n => w.out k n == some label) =
      ((List.range (w.handed k)).filter fun n => (w'.out k n).isNone).countP
        fun n => w.out k n == some label := by
    rw [World.ended, List.countP_filter, List.countP_filter]
    refine List.countP_congr fun n _ => ?_
    cases w.out k n <;> simp
  have stayed : (List.range (w.handed k)).countP (fun n => w'.out k n == some label) =
      ((List.range (w.handed k)).filter fun n => !(w'.out k n).isNone).countP
        fun n => w.out k n == some label := by
    rw [List.countP_filter]
    refine List.countP_congr fun n known => ?_
    rcases balanced.lasting k n (List.mem_range.mp known) with same | gone
    · rw [same]
      cases w.out k n <;> simp
    · rw [gone]
      simp
  have split := List.countP_eq_countP_filter_add (List.range (w.handed k))
    (fun n => w.out k n == some label) fun n => (w'.out k n).isNone
  rw [World.outstanding, World.outstanding, later, List.countP_append, stayed, ended, split]
  omega

/-- What a step records of a key is what it changes of the references that are out. -/
theorem Balanced.count (balanced : w.Balanced w' keys) (label : String) :
    keys.count (.acquired label) + (w.outstanding .entry label + w.outstanding .caller label) =
      keys.count (.released label) +
        (w'.outstanding .entry label + w'.outstanding .caller label) := by
  have entries := balanced.outstanding .entry label
  have callers := balanced.outstanding .caller label
  have acquired := fun k => count_events (fun _ _ => KeyEvent.acquired.inj) (w'.out k)
    (w.begun w' k) label
  have released := fun k => count_events (fun _ _ => KeyEvent.released.inj) (w.out k)
    (w.ended w' k) label
  have unreleased := fun k => count_events_of_ne (f := .acquired) (x := .released label)
    (by simp) (w'.out k) (w.begun w' k)
  have unacquired := fun k => count_events_of_ne (f := .released) (x := .acquired label)
    (by simp) (w.out k) (w.ended w' k)
  rw [balanced.events.count_eq, balanced.events.count_eq]
  simp only [List.count_append, acquires, releases, acquired, released, unreleased, unacquired]
  omega

end World

/-! ## What one request does to references -/

namespace Moment

/-- The references that a request hands out. -/
def begins (m : Moment) (k : Holder) : List Nat := m.before.begun m.after k

/-- The references that a request ends. -/
def ends (m : Moment) (k : Holder) : List Nat := m.before.ended m.after k

/-- What a request answers. -/
def reply (m : Moment) : Except Refusal Reply := (m.request.answer m.before).1.reply

/-- The key events of a request are accounted for, by an insertion, by entries that are destroyed,
    or by a caller who takes a reference or gives one back. -/
structure Accounts (m : Moment) : Prop where
  /-- It records the references it hands out and those it ends, and nothing else. -/
  events : m.keys.Perm (m.before.acquires m.after .entry ++ m.before.acquires m.after .caller ++
    (m.before.releases m.after .entry ++ m.before.releases m.after .caller))
  /-- An entry is made by its insertion. -/
  made : ∀ e ∈ m.begins .entry, ∃ d label name encname g,
    m.request.command = .within d (.insert label name encname) ∧
      m.reply = .ok (.inserted e g) ∧ m.after.out .entry e = some label
  /-- An insertion takes one reference, and none if it is refused. -/
  inserts : ∀ d label name encname, m.request.command = .within d (.insert label name encname) →
    (∃ e g, m.reply = .ok (.inserted e g) ∧ m.begins .entry = [e] ∧ m.keys = [.acquired label]) ∨
      ((∃ refusal, m.reply = .error refusal) ∧ m.keys = [])
  /-- The reference of an entry ends when the entry is destroyed. -/
  destroyed : ∀ e ∈ m.ends .entry, (m.after.entries.entry e).Destroyed ∧
    ∃ d dir, m.before.directory? d = some dir ∧ dir.Holds e ∧
      (m.request.command = .within d .endUpdate ∨ m.request.command = .within d .purge ∨
        m.request.command = .drop d ∨ ∃ j, m.request.command = .destroy d j)
  /-- A caller takes a reference to the key of an entry. -/
  taken : ∀ h ∈ m.begins .caller, ∃ e, m.request.command = .acquireKey e ∧
    m.reply = .ok (.number (some h)) ∧ m.after.out .caller h = m.before.out .entry e
  /-- It gets one exactly if the entry is live. -/
  acquires : ∀ e, m.heard = true → m.request.command = .acquireKey e → e < m.before.entries.size →
    m.reply = .ok (.number
      (if (m.before.entries.entry e).live then some m.before.held.size else none))
  /-- The reference of a caller ends when the caller gives it back. -/
  given : ∀ h ∈ m.ends .caller, m.request.command = .releaseKey h ∧ m.reply = .ok .done

variable {m : Moment}

/-- A request that leaves everything as it was hands nothing out and ends nothing. -/
theorem idle (same : m.after = m.before) :
    (∀ k n, n ∉ m.begins k) ∧ (∀ k n, n ∉ m.ends k) := by
  constructor
  · intro k n begun
    rw [begins, same, World.mem_begun] at begun
    exact absurd begun.2 (Nat.not_lt.mpr begun.1)
  · intro k n ended
    rw [ends, same, World.mem_ended] at ended
    obtain ⟨-, out, none⟩ := ended
    rw [none] at out
    exact Bool.false_ne_true out

/-- Whether a caller gets a reference to the key of an entry. -/
theorem reply_acquireKey (heard : m.heard = true) (command : m.request.command = .acquireKey e)
    (known : e < m.before.entries.size) :
    m.reply = .ok (.number
      (if (m.before.entries.entry e).live then some m.before.held.size else none)) := by
  have there : Running.entry e m.before = .ok (m.before.entries.entry e) m.before := by
    rw [Running.entry, need_run, Entries.getElem?_of_lt known]
  have run := m.run_eq
  rw [if_pos heard, command, Command.run, bind_of_ok there] at run
  rw [reply, Request.reply_eq, run, Entry.live]
  dsimp only
  cases (m.before.entries.entry e).key <;> rfl

/-- A reference that a caller holds can be given back. -/
theorem reply_releaseKey (heard : m.heard = true) (command : m.request.command = .releaseKey h)
    (held : m.before.held? h = some label) : m.reply = .ok .done := by
  have there : Running.need .held (·.held? h) m.before = .ok label m.before := by
    rw [need_run, held]
  have run := m.run_eq
  rw [if_pos heard, command, Command.run, bind_of_ok there] at run
  rw [reply, Request.reply_eq, run]
  rfl

theorem reply_of_toOption {reply : Reply} (told : m.reply.toOption = some reply) :
    m.reply = .ok reply := by
  cases answered : m.reply with
  | ok a =>
    rw [answered] at told
    rw [Option.some.inj told]
  | error refusal =>
    rw [answered] at told
    exact absurd told (by simp [Except.toOption])

/-- An entry that a request makes is the one that it was asked to insert. -/
theorem made_of_begins (sound : m.before.Sound) (begun : e ∈ m.begins .entry) :
    ∃ d label name encname g, m.request.command = .within d (.insert label name encname) ∧
      m.reply = .ok (.inserted e g) ∧ m.after.out .entry e = some label := by
  rcases m.dealing sound with ⟨heard, -, dealing⟩ | same
  · have made : m.after.entries.size ≠ m.before.entries.size := World.handed_ne_of_begun begun
    cases dealing with
    | @made d dir label name encname command here outcome size key _ _ _ =>
      obtain rfl : e = m.before.entries.size := World.eq_of_begun begun size
      have words := m.reply_within heard command here nofun
      rw [outcome] at words
      exact ⟨d, label, name, encname, _, command, reply_of_toOption words, key⟩
    | destroyed _ _ _ size _ _ _ => exact absurd size made
    | taken _ _ _ entries _ _ => exact absurd (congrArg Array.size entries) made
    | returned _ _ entries _ _ => exact absurd (congrArg Array.size entries) made
  · exact absurd begun ((idle same).1 _ _)

/-- A caller that is handed a reference asked for it. -/
theorem taken_of_begins (sound : m.before.Sound) (begun : h ∈ m.begins .caller) :
    ∃ e, m.request.command = .acquireKey e ∧ m.reply = .ok (.number (some h)) ∧
      m.after.out .caller h = m.before.out .entry e := by
  rcases m.dealing sound with ⟨heard, -, dealing⟩ | same
  · have grown : m.after.held.size ≠ m.before.held.size := World.handed_ne_of_begun begun
    cases dealing with
    | @taken e label command known key _ held _ =>
      have size : m.after.handed .caller = m.before.handed .caller + 1 :=
        (congrArg Array.size held).trans (Array.size_push _)
      obtain rfl : h = m.before.held.size := World.eq_of_begun begun size
      refine ⟨e, command, ?_, ?_⟩
      · rw [reply_acquireKey heard command known, Entry.live, key]
        rfl
      · rw [World.out_of_push held]
        exact (if_pos rfl).trans key.symm
    | made _ _ _ _ _ _ held _ => exact absurd (congrArg Array.size held) grown
    | destroyed _ _ _ _ _ held _ => exact absurd (congrArg Array.size held) grown
    | returned _ _ _ held _ =>
      exact absurd ((congrArg Array.size held).trans Array.size_setIfInBounds) grown
  · exact absurd begun ((idle same).1 _ _)

/-- A reference of a caller ends by being given back. -/
theorem given_of_ends (sound : m.before.Sound) (ended : h ∈ m.ends .caller) :
    m.request.command = .releaseKey h ∧ m.reply = .ok .done := by
  obtain ⟨known, out, none⟩ := World.mem_ended.mp ended
  rcases m.dealing sound with ⟨heard, -, dealing⟩ | same
  · have changed : m.after.out .caller h ≠ m.before.out .caller h := fun same => by
      rw [← same, none] at out
      exact Bool.false_ne_true out
    have unchanged : m.after.held = m.before.held → False := fun held =>
      changed (congrArg (fun held => (held[h]?).join) held)
    cases dealing with
    | @returned h' label command held _ set _ =>
      have known' : h' < m.before.held.size :=
        World.lt_of_out (k := .caller) (Option.isSome_of_eq_some held)
      obtain rfl : h = h' := by
        refine Decidable.byContradiction fun ne => changed ?_
        rw [World.out_of_set set known', if_neg ne]
      exact ⟨command, reply_releaseKey heard command held⟩
    | made _ _ _ _ _ _ held _ => exact (unchanged held).elim
    | destroyed _ _ _ _ _ held _ => exact (unchanged held).elim
    | taken _ _ _ _ held _ =>
      refine absurd ?_ changed
      rw [World.out_of_push held, if_neg (Nat.ne_of_lt known)]
  · exact absurd ended ((idle same).2 _ _)

/-- The reference of an entry ends when the entry is destroyed. -/
theorem destroyed_of_ends (sound : m.before.Sound) (ended : e ∈ m.ends .entry) :
    (m.after.entries.entry e).Destroyed ∧
      ∃ d dir, m.before.directory? d = some dir ∧ dir.Holds e ∧
        (m.request.command = .within d .endUpdate ∨ m.request.command = .within d .purge ∨
          m.request.command = .drop d ∨ ∃ j, m.request.command = .destroy d j) := by
  obtain ⟨known, live, none⟩ := World.mem_ended.mp ended
  rcases m.dealing sound with ⟨-, passage, -⟩ | same
  · have sound' := passage.sound sound
    have dead : (m.after.entries.entry e).live = false := congrArg Option.isSome none
    have grown := (m.balanced sound).grows .entry
    constructor
    · refine (sound'.hosts.fate e (Nat.lt_of_lt_of_le known grown)).resolve_left ?_
      rintro ⟨d, dir, there, held⟩
      have alive := (sound'.hosts.opened there).holds_live held
      exact Bool.false_ne_true (dead.symm.trans alive)
    · obtain ⟨d, dir, here, held, commands⟩ := passage.destroys sound live dead
      exact ⟨d, dir, here, held, commands.imp_left And.left⟩
  · exact absurd ended ((idle same).2 _ _)

/-- An insertion that is answered makes an entry. -/
theorem begins_of_inserts (sound : m.before.Sound)
    (command : m.request.command = .within d (.insert label name encname)) {reply : Reply}
    (replied : m.reply = .ok reply) : ∃ e, e ∈ m.begins .entry := by
  obtain ⟨heard, dir, here⟩ := m.directory_of_reply command replied
  have opened := sound.hosts.opened here
  have words := m.reply_within heard command here nofun
  replace words : m.reply.toOption = _ := words
  rw [replied] at words
  rcases Deed.cases ⟨m.before.opened dir, .insert label name encname⟩ opened with
    ⟨-, refused, -⟩ | ⟨-, outcome, answer, answers, -⟩
  · rw [refused] at words
    exact absurd words (by simp [Except.toOption])
  · rcases Deed.gains ⟨m.before.opened dir, .insert label name encname⟩ opened with
      ⟨-, size, -⟩ | ⟨unmade, -⟩
    · have grown : m.after.entries.size = m.before.entries.size + 1 := by
        rw [m.after_within heard command here nofun]
        exact size
      exact ⟨m.before.entries.size, World.mem_begun.mpr
        ⟨Nat.le_refl _, Nat.lt_of_lt_of_eq (Nat.lt_succ_self _) grown.symm⟩⟩
    · rw [Deed.inserted, answer, show outcome = _ from answers] at unmade
      exact absurd unmade (by simp)

/-- The only references that an insertion deals with are those of the entries it makes. -/
theorem events_of_insert (sound : m.before.Sound)
    (command : m.request.command = .within d (.insert label name encname)) :
    m.keys.Perm (m.before.acquires m.after .entry) := by
  have untaken : m.begins .caller = [] := by
    refine List.eq_nil_iff_forall_not_mem.mpr fun h begun => ?_
    obtain ⟨e, other, -⟩ := taken_of_begins sound begun
    exact absurd (command.symm.trans other) (by simp)
  have spared : m.ends .entry = [] := by
    refine List.eq_nil_iff_forall_not_mem.mpr fun e ended => ?_
    obtain ⟨-, _, _, -, -, other⟩ := destroyed_of_ends sound ended
    simp [command] at other
  have kept : m.ends .caller = [] := by
    refine List.eq_nil_iff_forall_not_mem.mpr fun h ended => ?_
    exact absurd (command.symm.trans (given_of_ends sound ended).1) (by simp)
  have events := (m.balanced sound).events
  rwa [World.acquires_eq_nil untaken, World.releases_eq_nil spared, World.releases_eq_nil kept,
    List.append_nil, List.append_nil, List.append_nil] at events

/-- An insertion takes one reference, and none if it is refused. -/
theorem inserts_or_refuses (sound : m.before.Sound)
    (command : m.request.command = .within d (.insert label name encname)) :
    (∃ e g, m.reply = .ok (.inserted e g) ∧ m.begins .entry = [e] ∧
      m.keys = [.acquired label]) ∨
      ((∃ refusal, m.reply = .error refusal) ∧ m.keys = []) := by
  have events := events_of_insert sound command
  cases answered : m.reply with
  | ok reply =>
    obtain ⟨e, begun⟩ := begins_of_inserts sound command answered
    obtain ⟨_, label', _, _, g, insertion, replied, out⟩ := made_of_begins sound begun
    obtain ⟨-, h⟩ := Command.within.inj (command.symm.trans insertion)
    obtain ⟨rfl, -, -⟩ := Action.insert.inj h
    -- the answer names the one entry that is made
    have only : m.begins .entry = [e] := by
      refine List.perm_singleton.mp ((List.perm_ext_iff_of_nodup (List.nodup_range' ..)
        (List.pairwise_singleton _ e)).mpr fun e' => ?_)
      rw [List.mem_singleton]
      refine ⟨fun begun' => ?_, fun h => h ▸ begun⟩
      obtain ⟨_, _, _, _, g', -, replied', -⟩ := made_of_begins sound begun'
      exact (Reply.inserted.inj (Except.ok.inj (replied'.symm.trans replied))).1
    refine .inl ⟨e, g, answered.symm.trans replied, only, List.perm_singleton.mp ?_⟩
    rw [begins] at only
    rw [World.acquires, only, List.map_singleton, out] at events
    exact events
  | error refusal =>
    have unmade : m.begins .entry = [] := by
      refine List.eq_nil_iff_forall_not_mem.mpr fun e begun => ?_
      obtain ⟨_, _, _, _, g, -, replied, -⟩ := made_of_begins sound begun
      exact absurd (answered.symm.trans replied) (by simp)
    rw [World.acquires_eq_nil unmade] at events
    exact .inr ⟨⟨refusal, rfl⟩, events.eq_nil⟩

/-- The key events of a request are accounted for. -/
theorem accounts (sound : m.before.Sound) : m.Accounts where
  events := (m.balanced sound).events
  made _ := made_of_begins sound
  inserts _ _ _ _ := inserts_or_refuses sound
  destroyed _ := destroyed_of_ends sound
  taken _ := taken_of_begins sound
  acquires _ := reply_acquireKey
  given _ := given_of_ends sound

end Moment

/-! ## A whole session -/

/-- Nothing quiet touches references. -/
theorem World.Quiet.references (quiet : w.Quiet w') : w'.handed = w.handed ∧ w'.out = w.out := by
  constructor
  · funext k
    cases k with
    | entry => exact congrArg Array.size quiet.entries
    | caller => exact congrArg Array.size quiet.held
  · funext k n
    cases k with
    | entry => exact congrArg (fun entries => (Entries.entry entries n).key) quiet.entries
    | caller => exact congrArg (fun held => (held[n]?).join) quiet.held

namespace Session

variable {m m' : Moment}

/-- The log has what the requests recorded. -/
theorem keys_eq (session : Session past w) :
    w.log.keys = past.flatMap fun m => m.keys.reverse := by
  induction session using Session.steps with
  | start => rfl
  | quiet _ _ quiet ih => rw [quiet.keys, ih]
  | @request past w before r ih =>
    have log := (Moment.balanced ⟨w, r⟩ before.sound).log
    rw [List.flatMap_cons, ← ih]
    exact log

/-- What was taken of a key is what was given back and what is out. -/
theorem acquisitions_eq (session : Session past w) (label : String) :
    w.log.acquisitions label = w.log.releases label +
      (w.outstanding .entry label + w.outstanding .caller label) := by
  induction session using Session.steps with
  | start => rfl
  | quiet _ _ quiet ih =>
    obtain ⟨handed, out⟩ := quiet.references
    rw [World.outstanding, World.outstanding, handed, out, Log.acquisitions, Log.releases,
      quiet.keys]
    exact ih
  | @request past w before r ih =>
    have balanced := Moment.balanced ⟨w, r⟩ before.sound
    have log : (r.answer w).2.log.keys = (Moment.keys ⟨w, r⟩).reverse ++ w.log.keys := balanced.log
    have step : (Moment.keys ⟨w, r⟩).count (.acquired label) +
        (w.outstanding .entry label + w.outstanding .caller label) =
      (Moment.keys ⟨w, r⟩).count (.released label) +
        ((r.answer w).2.outstanding .entry label + (r.answer w).2.outstanding .caller label) :=
      balanced.count label
    rw [Log.acquisitions, Log.releases] at ih
    rw [Log.acquisitions, Log.releases, log, List.count_append, List.count_append,
      List.count_reverse, List.count_reverse]
    omega

/-- References are handed out one after the other, and none that is out later was not handed out. -/
theorem handed_le (session : Session past w) (was : m ∈ past) (k : Holder) :
    m.after.handed k ≤ w.handed k := by
  induction session using Session.steps with
  | start => exact absurd was List.not_mem_nil
  | quiet _ _ quiet ih =>
    rw [quiet.references.1]
    exact ih was
  | @request past w before r ih =>
    rcases List.mem_cons.mp was with rfl | old
    · exact Nat.le_refl _
    · exact Nat.le_trans (ih old) ((Moment.balanced ⟨w, r⟩ before.sound).grows k)

/-- Every reference that was handed out was handed out by one request. -/
theorem begins_once (session : Session past w) (k : Holder) (n : Nat) :
    past.countP (fun m => n ∈ m.begins k) = if n < w.handed k then 1 else 0 := by
  induction session using Session.steps with
  | start => cases k <;> rfl
  | quiet _ _ quiet ih =>
    rw [quiet.references.1]
    exact ih
  | @request past w before r ih =>
    have grows := (Moment.balanced ⟨w, r⟩ before.sound).grows k
    have begun : n ∈ Moment.begins ⟨w, r⟩ k ↔ w.handed k ≤ n ∧ n < (r.answer w).2.handed k :=
      World.mem_begun
    replace grows : w.handed k ≤ (r.answer w).2.handed k := grows
    rw [List.countP_cons, ih]
    simp only [decide_eq_true_eq, begun]
    split <;> split <;> split <;> omega

/-- Every reference that is not out any more was ended by one request. -/
theorem ends_once (session : Session past w) (k : Holder) (n : Nat) :
    past.countP (fun m => n ∈ m.ends k) =
      if n < w.handed k ∧ w.out k n = none then 1 else 0 := by
  induction session using Session.steps with
  | start => cases k <;> rfl
  | quiet _ _ quiet ih =>
    obtain ⟨handed, out⟩ := quiet.references
    rw [handed, out]
    exact ih
  | @request past w before r ih =>
    have balanced := Moment.balanced ⟨w, r⟩ before.sound
    have ended : n ∈ Moment.ends ⟨w, r⟩ k ↔ n < w.handed k ∧ (w.out k n).isSome = true ∧
      (r.answer w).2.out k n = none := World.mem_ended
    have grows : w.handed k ≤ (r.answer w).2.handed k := balanced.grows k
    rw [List.countP_cons, ih]
    simp only [decide_eq_true_eq, ended]
    by_cases known : n < w.handed k
    · have lasting : (r.answer w).2.out k n = w.out k n ∨ (r.answer w).2.out k n = none :=
        balanced.lasting k n known
      have known' := Nat.lt_of_lt_of_le known grows
      cases here : w.out k n with
      | none =>
        rw [here, or_self] at lasting
        simp [known, known', lasting]
      | some label => simp [known, known']
    · -- what is handed out only now is out
      have given : n < (r.answer w).2.handed k → (r.answer w).2.out k n ≠ none := fun known' =>
        Option.isSome_iff_ne_none.mp
          (balanced.given k n (World.mem_begun.mpr ⟨Nat.not_lt.mp known, known'⟩))
      have off : ¬ (n < (r.answer w).2.handed k ∧ (r.answer w).2.out k n = none) := fun h =>
        given h.1 h.2
      simp [known, off]

/-- A reference is out under the label it was handed out with, and it ends under that label. -/
theorem same_label (session : Session past w) (was : m ∈ past) (begun : n ∈ m.begins k) :
    (w.out k n = m.after.out k n ∨ w.out k n = none) ∧
      ∀ m' ∈ past, n ∈ m'.ends k → m'.before.out k n = m.after.out k n := by
  induction session using Session.steps with
  | start => exact absurd was List.not_mem_nil
  | quiet _ _ quiet ih =>
    rw [quiet.references.2]
    exact ih was
  | @request past w before r ih =>
    have balanced := Moment.balanced ⟨w, r⟩ before.sound
    have bounds := World.mem_begun.mp begun
    rcases List.mem_cons.mp was with rfl | old
    · -- no earlier request ended it
      refine ⟨.inl rfl, fun m' was' ended => ?_⟩
      have known := (World.mem_ended.mp ended).1
      rcases List.mem_cons.mp was' with rfl | old'
      · exact absurd known (Nat.not_lt.mpr bounds.1)
      · obtain ⟨earlier, session'⟩ := before.earlier old'
        have grows := (m'.balanced session'.sound).grows k
        have later := before.handed_le old' k
        exact absurd bounds.1 (Nat.not_le.mpr
          (Nat.lt_of_lt_of_le known (Nat.le_trans grows later)))
    · obtain ⟨now, ends⟩ := ih old
      have known : n < w.handed k := Nat.lt_of_lt_of_le bounds.2 (before.handed_le old k)
      have lasting : (r.answer w).2.out k n = w.out k n ∨ (r.answer w).2.out k n = none :=
        balanced.lasting k n known
      refine ⟨?_, fun m' was' ended => ?_⟩
      · rcases lasting with same | gone
        · rwa [same]
        · exact .inr gone
      · rcases List.mem_cons.mp was' with rfl | old'
        · refine now.resolve_right fun gone => ?_
          have out := (World.mem_ended.mp ended).2.1
          rw [gone] at out
          exact Bool.false_ne_true out
        · exact ends m' old' ended

/-- Without directories no entry has a reference. -/
theorem outstanding_eq_zero (session : Session past w) (none : ∀ d, w.directory? d = none)
    (label : String) : w.outstanding .entry label = 0 := by
  refine List.countP_eq_zero.mpr fun e known => ?_
  have gone : (w.entries.entry e).Destroyed := by
    refine (session.sound.hosts.fate e (List.mem_range.mp known)).resolve_left ?_
    rintro ⟨d, dir, here, -⟩
    exact absurd (here.symm.trans (none d)) (by simp)
  have out : w.out .entry e = Option.none := Option.not_isSome_iff_eq_none.mp
    (Bool.eq_false_iff.mp gone.not_live)
  rw [out]
  simp

/-- In every session key references balance: what each request records is accounted for; every
    reference is taken by one request and, once it is not out any more, was given back by one
    request, under the label it was taken with; so for every key, what was taken is what was given
    back and what live entries and callers still have, and without directories no entry has any. -/
theorem key_balance (session : Session past w) :
    (w.log.keys = past.flatMap fun m => m.keys.reverse) ∧
    (∀ m ∈ past, m.Accounts) ∧
    (∀ k n, n < w.handed k → past.countP (fun m => n ∈ m.begins k) = 1 ∧
      past.countP (fun m => n ∈ m.ends k) = if w.out k n = none then 1 else 0) ∧
    (∀ m ∈ past, ∀ k, ∀ n ∈ m.begins k, (w.out k n = m.after.out k n ∨ w.out k n = none) ∧
      ∀ m' ∈ past, n ∈ m'.ends k → m'.before.out k n = m.after.out k n) ∧
    (∀ label, w.log.acquisitions label = w.log.releases label +
      (w.outstanding .entry label + w.outstanding .caller label)) ∧
    ((∀ d, w.directory? d = none) → ∀ label, w.outstanding .entry label = 0) := by
  refine ⟨session.keys_eq, fun m was => ?_, fun k n known => ⟨?_, ?_⟩,
    fun m was k n begun => session.same_label was begun, session.acquisitions_eq,
    session.outstanding_eq_zero⟩
  · obtain ⟨earlier, before⟩ := session.earlier was
    exact m.accounts before.sound
  · rw [session.begins_once, if_pos known]
  · rw [session.ends_once]
    simp only [known, true_and]

/-- A caller takes a reference to the key of the entry that a scan confirmed, and the directory is
    dropped: the caller's reference is the only one that is out. -/
theorem key_balance_after_scan : ∃ past w, Session past w ∧ w.outstanding .entry "k" = 0 ∧
    w.log.acquisitions "k" = w.log.releases "k" + 1 := by
  let requests := Request.scan ++ [⟨none, .acquireKey 1⟩, ⟨none, .drop 0⟩]
  have session : Session _ (World.small.answers requests).2 := Session.small.answers requests
  obtain ⟨-, -, -, -, balance, empty⟩ := session.key_balance
  have size : (World.small.answers requests).2.directories.size = 1 := by decide +kernel
  have dropped : (World.small.answers requests).2.directory? 0 = none := by decide +kernel
  have callers : (World.small.answers requests).2.outstanding .caller "k" = 1 := by decide +kernel
  have entries := empty (fun d => by
    cases d with
    | zero => exact dropped
    | succ d =>
      rw [World.directory?, Array.getElem?_eq_none (by omega)]
      rfl) "k"
  have counts := balance "k"
  rw [entries, callers] at counts
  exact ⟨_, _, session, entries, counts⟩

end Session

end NameCache
