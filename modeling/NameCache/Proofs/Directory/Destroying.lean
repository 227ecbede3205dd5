/-
  Destroying entries, run step by step.

  `free_freed` follows one entry out of its list and both tables; the three links and the key are
  reset on the way, so nothing of it is left.  `freeList_spec` is the loop: each round takes the
  first entry off the list and no round puts one on, so it ends with its fuel.  The states on the
  way are `Frees`; what is recorded and left of each entry is read off them.
-/
import NameCache.Proofs.Directory.Soundness

namespace NameCache

/-- What is left of an entry when it is destroyed. -/
def Entry.spent (x : Entry) : Entry :=
  { x with key := none, dirNode := none, nameNode := none, encnameNode := none }

theorem Entry.destroyed_spent (x : Entry) : x.spent.Destroyed := ⟨rfl, rfl, rfl, rfl⟩

namespace Opened

variable {s s' s'' : Opened} {others : Nat → Prop} {e n d l : Nat} {expiry : Expiry}

theorem onPool_of_ok {α : Type} {op : Step (Indexed Pool) α} {a : α} {entries : Entries}
    {pool : Pool} (run : op ⟨s.entries, s.pool⟩ = .ok a ⟨entries, pool⟩) :
    onPool op s = .ok a { s with entries, pool } := by
  rw [onPool, Step.focus, run]

/-! ## One entry -/

section Freed

variable {lists : SlotLists Nat} {pool : Pool} {label : String}

/-- The state after entry `e` was destroyed, given what its list and the tables came to be. -/
def freed (s : Opened) (e : Nat) (lists : SlotLists Nat) (pool : Pool) (label : String) :
    Opened where
  dir := { s.dir with lists }
  entries := s.entries.modify e Entry.spent
  pool := pool
  tally := s.tally.addFree
  log := (s.log.emit (.freedEntry s.dir.id (s.entries.entry e))).release label

theorem freed_entry_self (he : e < s.entries.size) :
    (s.freed e lists pool label).entries.entry e = (s.entries.entry e).spent :=
  Entries.entry_modify_self he

theorem freed_entry_ne (h : d ≠ e) :
    (s.freed e lists pool label).entries.entry d = s.entries.entry d :=
  Entries.entry_modify_ne h

@[simp] theorem size_entries_freed :
    (s.freed e lists pool label).entries.size = s.entries.size :=
  Entries.size_modify

/-- The steps of destroying an entry. -/
theorem free_run (removed : SlotLists.remove n s.dir.lists = .ok (some e) lists)
    (unlinked : Pool.unlink e ⟨s.entries.modify e fun x => { x with dirNode := none }, s.pool⟩ =
      .ok () ⟨(s.entries.modify e fun x => { x with dirNode := none }).modify e fun x =>
        { x with nameNode := none, encnameNode := none }, pool⟩)
    (he : e < s.entries.size) (key : (s.entries.entry e).key = some label) :
    free n s = .ok () (s.freed e lists pool label) := by
  have key' : (Entries.entry ((s.entries.modify e fun x => { x with dirNode := none }).modify e
      fun x => { x with nameNode := none, encnameNode := none }) e).key = some label := by
    rw [Entries.entry_modify_self (by rw [Entries.size_modify]; exact he),
      Entries.entry_modify_self he]
    exact key
  have spent : ((s.entries.modify e fun x => { x with dirNode := none }).modify e
      fun x => { x with nameNode := none, encnameNode := none }).modify e
        (fun x => { x with key := none }) = s.entries.modify e Entry.spent := by
    rw [Entries.modify_modify, Entries.modify_modify]
    rfl
  rw [free, Step.get_bind, Step.bind_of_ok (onLists_of_ok removed)]
  show (entry e >>= _) _ = _
  rw [entry_bind, emit_bind, editEntry_bind, Step.bind_of_ok (onPool_of_ok unlinked), entry_bind]
  simp only [key']
  rw [editEntry_bind, spent]
  rfl

theorem ledger_freed (values : ∀ k, lists.values k = (s.dir.lists.values k).erase e)
    (key : (s.entries.entry e).key = some label) :
    (s.freed e lists pool label).ledger = s.ledger.drop e := by
  have bare : (s.ledger.entries.entry e).key = some label := by
    rw [show s.ledger.entries.entry e = (s.entries.entry e).bare from Entries.entry_map_bare]
    exact key
  ext1
  case active => exact values _
  case stale => exact values _
  case entries =>
    exact Entries.map_bare_modify (f := Entry.spent) (g := fun x => { x with key := none })
      fun _ => rfl
  case keys =>
    rw [Ledger.drop, bare]
    rfl
  all_goals rfl

theorem holds_freed (sound : s.Sound others)
    (ledger : (s.freed e lists pool label).ledger = s.ledger.drop e) (d : Nat) :
    (s.freed e lists pool label).dir.Holds d ↔ s.dir.Holds d ∧ d ≠ e := by
  show (s.freed e lists pool label).ledger.Holds d ↔ s.ledger.Holds d ∧ d ≠ e
  rw [ledger]
  exact Ledger.holds_drop sound.ledger.toTidy

/-- The others on the lists and in the tables are where they were. -/
theorem sound_freed (sound : s.Sound others) (held : s.dir.Holds e) {order : List Nat}
    (ledger : (s.freed e lists pool label).ledger = s.ledger.drop e)
    (standing : Standing lists s.entries)
    (values : ∀ k, lists.values k = (s.dir.lists.values k).erase e)
    (linked : pool.Sound (s.freed e lists pool label).entries (order.erase e))
    (sorted : order.Pairwise (· > ·)) (members : ∀ d, d ∈ order ↔ others d ∨ s.dir.Holds d) :
    (s.freed e lists pool label).Sound others := by
  have holds := holds_freed sound ledger
  have nodup : order.Nodup := sorted.imp fun h => Nat.ne_of_gt h
  refine ⟨?_, ledger ▸ sound.ledger.drop e, ⟨order.erase e, linked, ?_, fun d => ?_⟩,
    fun d hd => ?_⟩
  · refine standing.congr fun k d hd => ?_
    have hne : d ≠ e := by
      rintro rfl
      rw [values] at hd
      exact ((sound.standing.nodup k).mem_erase_iff.mp hd).1 rfl
    rw [freed_entry_ne hne]
  · exact sorted.sublist List.erase_sublist
  · rw [nodup.mem_erase_iff, members, holds]
    constructor
    · rintro ⟨hne, h | h⟩
      · exact .inl h
      · exact .inr ⟨h, hne⟩
    · rintro (h | ⟨h, hne⟩)
      · exact ⟨fun heq => (sound.apart d h).1 (heq ▸ held), .inl h⟩
      · exact ⟨hne, .inr h⟩
  · rw [holds, size_entries_freed]
    exact ⟨fun h => (sound.apart d hd).1 h.1, (sound.apart d hd).2⟩

/-- Nothing but the entry itself is changed, and of that nothing is left. -/
theorem leads_freed (sound : s.Sound others) (held : s.dir.Holds e)
    (ledger : (s.freed e lists pool label).ledger = s.ledger.drop e) :
    s.Leads (s.freed e lists pool label) := by
  have holds := holds_freed sound ledger
  have self : (s.freed e lists pool label).entries.entry e = (s.entries.entry e).spent :=
    freed_entry_self (sound.holds_lt held)
  have either : ∀ d, (s.freed e lists pool label).entries.entry d = s.entries.entry d ∨
      (s.freed e lists pool label).entries.entry d = (s.entries.entry d).spent := by
    intro d
    by_cases hne : d = e
    · rw [hne]
      exact .inr self
    · exact .inl (freed_entry_ne hne)
  refine ⟨rfl, rfl, rfl, Nat.le_of_eq size_entries_freed.symm, fun d _ hd => ?_, fun d _ => ?_,
    fun d _ => ?_, fun d hd => .inl ((holds d).mp hd).1, fun d hlt h => ?_⟩
  · exact freed_entry_ne fun heq => hd (heq ▸ held)
  · rcases either d with h | h
    all_goals
      rw [h]
      exact ⟨rfl, rfl, rfl⟩
  · rcases either d with h | h
    · exact .inl (congrArg Entry.key h)
    · exact .inr (congrArg Entry.key h)
  · by_cases hne : d = e
    · rw [hne, self]
      exact .inr (Entry.destroyed_spent _)
    · rw [size_entries_freed] at hlt
      exact .inl ((holds d).mpr ⟨h.resolve_right (Nat.not_le.mpr hlt), hne⟩)

end Freed

/-- Destroying the entry at a node, with what the list and the tables come to be. -/
theorem free_freed (sound : s.Sound others) (hm : (n, e) ∈ s.dir.lists.chain l) :
    ∃ lists pool label, free n s = .ok () (s.freed e lists pool label) ∧
      (s.freed e lists pool label).Sound others ∧ s.Leads (s.freed e lists pool label) ∧
      (s.freed e lists pool label).ledger = s.ledger.drop e ∧
      ∀ k, lists.values k = (s.dir.lists.values k).erase e := by
  have held : s.dir.Holds e := holds_of_mem sound.standing hm
  have he := sound.holds_lt held
  obtain ⟨label, key⟩ := Option.isSome_iff_exists.mp (sound.holds_live held)
  obtain ⟨order, linked, sorted, members⟩ := sound.linked
  obtain ⟨lists', removed, standing, values⟩ := sound.standing.remove hm
  have linked₁ : s.pool.Sound (s.entries.modify e fun x => { x with dirNode := none }) order :=
    linked.congr fun d _ kind =>
      ⟨Entries.property_modify (f := fun x => { x with dirNode := none }) (·.hash kind)
        (fun _ => by cases kind <;> rfl) d,
      Entries.property_modify (f := fun x => { x with dirNode := none }) (·.bucketNode kind)
        (fun _ => by cases kind <;> rfl) d⟩
  obtain ⟨pool', unlinked, linked₂⟩ := linked₁.unlink_spec ((members e).mpr (.inr held))
  have linked₃ : pool'.Sound (s.freed e lists' pool' label).entries (order.erase e) := by
    -- the entry itself is in neither table any more
    refine linked₂.congr fun d hd kind => ?_
    have hne := (linked.names.nodup.mem_erase_iff.mp hd).1
    rw [freed_entry_ne hne, Entries.entry_modify_ne hne, Entries.entry_modify_ne hne]
    exact ⟨rfl, rfl⟩
  have ledger : (s.freed e lists' pool' label).ledger = s.ledger.drop e := ledger_freed values key
  exact ⟨lists', pool', label, free_run removed unlinked he key,
    sound_freed sound held ledger standing values linked₃ sorted members,
    leads_freed sound held ledger, ledger, values⟩

/-! ## A whole list -/

/-- The first node of a list. -/
theorem front_run (sound : s.Sound others) (hl : l < 2) :
    onLists (SlotLists.front l) s = .ok ((s.dir.lists.chain l).head?.map (·.1)) s :=
  onLists_of_ok (sound.standing.sound.front_run (sound.standing.two ▸ hl))

/-- The states that destroying entries in order leads through. -/
inductive Frees : Opened → List Nat → Opened → Prop
  | nil (s : Opened) : Frees s [] s
  | cons {s s' : Opened} {e : Nat} {es : List Nat} (lists : SlotLists Nat) (pool : Pool)
    (label : String) (rest : Frees (s.freed e lists pool label) es s') : Frees s (e :: es) s'

theorem Frees.append {es es' : List Nat} (first : s.Frees es s') (second : s'.Frees es' s'') :
    s.Frees (es ++ es') s'' := by
  induction first with
  | nil => exact second
  | cons lists pool label _ ih => exact .cons lists pool label (ih second)

/-- Destroying the entries of a list from the front. -/
theorem freeList_spec (hl : l < 2) (fuel : Nat) : ∀ s : Opened, s.Sound others →
    (s.dir.lists.values l).length = fuel →
    ∃ s', freeList l fuel s = .ok fuel s' ∧ s'.Sound others ∧ s.Leads s' ∧
      s'.ledger = s.ledger.dropAll (s.dir.lists.values l) ∧ s'.dir.active = s.dir.active ∧
      (∀ k, k ≠ l → s'.dir.lists.values k = s.dir.lists.values k) ∧
      s.Frees (s.dir.lists.values l) s' := by
  -- each round takes one entry off the list, and the fuel is the length of the list
  induction fuel with
  | zero =>
    intro s sound length
    have nothing : s.dir.lists.values l = [] := List.length_eq_zero_iff.mp length
    have chain : s.dir.lists.chain l = [] := List.map_eq_nil_iff.mp nothing
    refine ⟨s, ?_, sound, .refl s, by rw [nothing]; rfl, rfl, fun _ _ => rfl,
      by rw [nothing]; exact .nil s⟩
    rw [freeList, Step.bind_of_ok (front_run sound hl), chain]
    rfl
  | succ fuel ih =>
    intro s sound length
    cases values : s.dir.lists.values l with
    | nil =>
      rw [values] at length
      exact absurd length (by simp)
    | cons e rest =>
      -- the first entry goes, and the rest is a shorter list
      obtain ⟨⟨n, d⟩, tail, chain, rfl, -⟩ := List.map_eq_cons_iff.mp values
      have hm : (n, d) ∈ s.dir.lists.chain l := by
        rw [chain]
        exact List.mem_cons_self ..
      obtain ⟨lists, pool, label, run₁, sound₁, leads₁, ledger₁, values₁⟩ := free_freed sound hm
      have left : (s.freed d lists pool label).dir.lists.values l = rest := by
        show lists.values l = rest
        rw [values₁, values, List.erase_cons_head]
      rw [values] at length
      obtain ⟨s', run, sound', leads, ledger, active, others', frees⟩ :=
        ih (s.freed d lists pool label) sound₁ (left ▸ Nat.succ.inj length)
      rw [left] at frees
      refine ⟨s', ?_, sound', leads₁.trans leads, ?_, active, fun k hk => ?_,
        .cons lists pool label frees⟩
      · rw [freeList, Step.bind_of_ok (front_run sound hl), chain]
        refine (Step.bind_of_ok run₁).trans ?_
        rw [Step.bind_of_ok run]
        rfl
      · rw [ledger, ledger₁, left]
        rfl
      · have off : d ∉ s.dir.lists.values k := fun h => hk
          (sound.standing.unique (SlotLists.mem_values.mpr ⟨n, hm⟩) h)
        rw [others' k hk]
        show lists.values k = s.dir.lists.values k
        rw [values₁, List.erase_of_not_mem off]

end Opened

end NameCache
