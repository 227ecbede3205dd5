/-
  The loops that empty a list end by themselves.

  Demoting by a walk and destroying a list look again and again for the first node of a list and
  take it off.  Taken without a bound (`Step.Repeats`), what ends these loops is that the links spell
  out lists: without its first node a list is the rest of it, and what goes to another list does not
  come back to this one.  `TakesOff` is what a round does, and `Drains` what such a loop does: as
  many rounds as there were entries, each of which takes one off, and then it is over.

  The functions are these loops with the counts of the lists for bounds (`demoteActive_eq`,
  `freeList_eq`), so they lead where the loops do.
-/
import NameCache.Proofs.Directory.Operations
import NameCache.Proofs.Loops

namespace NameCache

namespace Opened

variable {s s' t : Opened} {others : Nat → Prop} {path : List Opened} {l : Nat}
  {onto : Option Nat} {next : Step Opened (Option Nat)} {body : Nat → Step Opened Unit}

/-- The first entry of list `l` was taken off, and put at the front of the list `onto` if there is
    one.  The other lists stay as they are, and so do the parts that the lists play. -/
structure TakesOff (l : Nat) (onto : Option Nat) (s s' : Opened) : Prop where
  first : ∃ e, s.dir.lists.values l = e :: s'.dir.lists.values l ∧
    ∀ k, k ≠ l → s'.dir.lists.values k =
      if onto = some k then e :: s.dir.lists.values k else s.dir.lists.values k
  count : s.dir.lists.count l = s'.dir.lists.count l + 1
  active : s'.dir.active = s.dir.active

/-- What a round does to the lists says what it does to their counts. -/
theorem TakesOff.of_values {e : Nat} (sound : s.dir.lists.Sound) (sound' : s'.dir.lists.Sound)
    (first : s.dir.lists.values l = e :: s'.dir.lists.values l)
    (rest : ∀ k, k ≠ l → s'.dir.lists.values k =
      if onto = some k then e :: s.dir.lists.values k else s.dir.lists.values k)
    (active : s'.dir.active = s.dir.active) : TakesOff l onto s s' where
  first := ⟨e, first, rest⟩
  count := by rw [sound.count_values, sound'.count_values, first, List.length_cons]
  active := active

/-- A loop empties list `l`: it ends, in one way only, after as many rounds as there were entries
    on the list, each of which takes one off. -/
structure Drains (next : Step Opened (Option Nat)) (body : Nat → Step Opened Unit) (l : Nat)
    (onto : Option Nat) (s : Opened) (path : List Opened) (t : Opened) : Prop where
  ends : ∀ path' t', Step.Repeats next body s path' t' ↔ path' = path ∧ t' = t
  rounds : path.length = (s.dir.lists.values l).length
  count : path.length = s.dir.lists.count l
  each : List.IsChain (TakesOff l onto) (s :: path)
  empty : t.dir.lists.values l = []

/-- It does if a round finds nothing when the list is empty, and else takes the first entry off. -/
theorem drains_of_rounds {Inv : Opened → Prop} (lists : ∀ s, Inv s → s.dir.lists.Sound)
    (idle : ∀ s, Inv s → s.dir.lists.chain l = [] → next s = .ok none s)
    (round : ∀ s n e rest, Inv s → s.dir.lists.chain l = (n, e) :: rest →
      ∃ i s₁ s', next s = .ok (some i) s₁ ∧ body i s₁ = .ok () s' ∧ Inv s' ∧ TakesOff l onto s s')
    (inv : Inv s) : ∃ path t, Drains next body l onto s path t ∧ Inv t := by
  have counted : ∃ path t, Step.Repeats next body s path t ∧
      path.length = (s.dir.lists.values l).length ∧ List.IsChain (TakesOff l onto) (s :: path) ∧
      Inv t ∧ (t.dir.lists.values l).length = 0 := by
    apply Step.Repeats.of_countdown ?_ ?_ inv
    · intro s inv none_left
      exact idle s inv (List.map_eq_nil_iff.mp (List.length_eq_zero_iff.mp none_left))
    · intro s n inv number
      obtain ⟨⟨i, e⟩, rest, chain⟩ := List.exists_cons_of_length_eq_add_one
        ((List.length_map _).symm.trans number)
      obtain ⟨i, s₁, s', found, worked, inv', takes⟩ := round s i e rest inv chain
      obtain ⟨_, first, -⟩ := takes.first
      rw [first] at number
      exact ⟨i, s₁, s', found, worked, inv', Nat.succ.inj number, takes⟩
  obtain ⟨path, t, repeats, rounds, each, inv_end, none_left⟩ := counted
  refine ⟨path, t, ⟨fun path' t' => ⟨repeats.unique, ?_⟩, rounds, ?_, each, ?_⟩, inv_end⟩
  · rintro ⟨rfl, rfl⟩
    exact repeats
  · rw [rounds, (lists s inv).count_values]
  · exact List.length_eq_zero_iff.mp none_left

namespace Drains

/-- What the loop leads to, as a function with a bound. -/
theorem bounded (drains : Drains next body l onto s path t) :
    Step.bounded next body (s.dir.lists.count l) s = .ok path.length t := by
  have repeats := (drains.ends path t).mpr ⟨rfl, rfl⟩
  exact repeats.bounded _ (Nat.le_of_eq drains.count)

end Drains

/-! ## Demoting by a walk -/

/-- Demote the entry at a node: drop its generation and move it to the stale list. -/
def demote (node : Nat) : Step Opened Unit := do
  let d := (← get).dir
  match d.lists.value? node with
  | some e =>
    editEntry e fun entry => { entry with generation := 0 }
    emit (.expiredEntry d.id (← entry e))
  | none => pure ()
  onLists (SlotLists.moveToFront node d.active.other.list)

/-- The walk demotes the first active entry as long as there is one. -/
theorem demoteActive_eq (fuel : Nat) :
    demoteActive fuel = (fun _ => ()) <$> Step.bounded activeFront demote fuel := by
  induction fuel with
  | zero =>
    rw [demoteActive, Step.bounded, map_bind]
    congr 1
    funext found
    cases found <;> rfl
  | succ fuel ih =>
    rw [demoteActive, Step.bounded, map_bind]
    congr 1
    funext found
    cases found with
    | none => rfl
    | some node =>
      -- both sides branch on the value at the node, and go on in the same way after either branch
      simp only [demote, ih, map_bind, bind_assoc]
      congr 1
      funext d
      cases d.dir.lists.value? node with
      | none => rfl
      | some e => rfl

/-- A round of the walk. -/
theorem demote_round (sound : s.dir.lists.Sound) (two : s.dir.lists.heads.size = 2) {n e : Nat}
    {rest : List (Nat × Nat)} (chain : s.dir.lists.chain s.dir.active.list = (n, e) :: rest) :
    ∃ s', demote n s = .ok () s' ∧ s'.dir.lists.Sound ∧ s'.dir.lists.heads.size = 2 ∧
      TakesOff s.dir.active.list (some s.dir.active.other.list) s s' := by
  have value : s.dir.lists.value? n = some e :=
    sound.value?_of_mem (chain ▸ List.mem_cons_self ..)
  obtain ⟨lists, moved, sound', heads, first, onto, others⟩ := sound.moveToFront_first chain
    (two ▸ s.dir.active.other.list_lt) s.dir.active.other_list_ne.symm
  refine ⟨{ s.stamped e with dir := { s.dir with lists } }, ?_, sound', heads.trans two, ?_⟩
  · refine (Step.get_bind _ s).trans ?_
    simp only [value]
    exact onLists_of_ok (s := s.stamped e) moved
  · refine .of_values (e := e) sound sound' ?_ (fun k hk => ?_) rfl
    · rw [SlotLists.values, chain]
      exact congrArg (e :: ·) first.symm
    · by_cases stale : s.dir.active.other.list = k
      · subst stale
        rw [if_pos rfl]
        exact onto
      · rw [if_neg fun same => stale (Option.some.inj same)]
        exact others k hk fun same => stale same.symm

/-- The walk ends, whatever the entries are: it looks at the lists alone. -/
theorem walk_drains (sound : s.dir.lists.Sound) (two : s.dir.lists.heads.size = 2) :
    ∃ path t, Drains activeFront demote s.dir.active.list (some s.dir.active.other.list) s path t ∧
      t.dir.lists.Sound ∧ t.dir.lists.heads.size = 2 ∧ t.dir.active = s.dir.active := by
  have front : ∀ x : Opened, x.dir.lists.Sound → x.dir.lists.heads.size = 2 →
      activeFront x = .ok ((x.dir.lists.chain x.dir.active.list).head?.map (·.1)) x := by
    intro x sound two
    rw [activeFront, Step.get_bind]
    exact onLists_of_ok (sound.front_run (two ▸ x.dir.active.list_lt))
  refine drains_of_rounds (fun _ inv => inv.1) ?_ ?_ ⟨sound, two, rfl⟩
  · rintro x ⟨sound, two, active⟩ chain
    rw [front x sound two, active, chain]
    rfl
  · rintro x n e rest ⟨sound, two, active⟩ chain
    rw [← active] at chain ⊢
    obtain ⟨x', worked, sound', two', takes⟩ := demote_round sound two chain
    refine ⟨n, x, x', ?_, worked, ⟨sound', two', takes.active⟩, takes⟩
    rw [front x sound two, chain]
    rfl

/-- So demoting by a walk is this loop, from the state without a generation. -/
theorem expire_drains (sound : s.dir.lists.Sound) (two : s.dir.lists.heads.size = 2) :
    ∃ path t, Drains activeFront demote s.dir.active.list (some s.dir.active.other.list)
        { s with dir := { s.dir with generation := 0 } } path t ∧
      ∀ expiry, expiry = .walk ∨ s.dir.staleCount ≠ 0 →
        expire expiry s = .ok () { t with tally := t.tally.addExpiration } := by
  let s₀ : Opened := { s with dir := { s.dir with generation := 0 } }
  obtain ⟨path, t, drains, sound', -, active⟩ := walk_drains (s := s₀) sound two
  refine ⟨path, t, drains, fun expiry walks => ?_⟩
  have walk : ¬ (expiry = .swap ∧ s₀.dir.staleCount = 0) := by
    rintro ⟨rfl, none_stale⟩
    exact walks.elim (by simp) fun stale => stale none_stale
  have run : demoteActive s₀.dir.activeCount s₀ = .ok () t := by
    rw [demoteActive_eq]
    exact Step.map_of_ok drains.bounded
  have none_active : t.dir.activeCount = 0 := by
    rw [Directory.activeCount, active, sound'.count_values]
    exact List.length_eq_zero_iff.mpr drains.empty
  have rest : (do editTally Tally.addExpiration; requireNoActive) t =
      .ok () { t with tally := t.tally.addExpiration } := by
    rw [editTally_bind, requireNoActive, Step.get_bind]
    simp only [none_active]
    rfl
  rw [expire, editDir_bind, Step.get_bind, if_neg walk]
  exact (Step.bind_of_ok run).trans rest

/-! ## Destroying -/

/-- The loop destroys the first entry of the list as long as there is one. -/
theorem freeList_eq (list fuel : Nat) :
    freeList list fuel = Step.bounded (onLists (SlotLists.front list)) free fuel := by
  induction fuel with
  | zero => rfl
  | succ fuel ih =>
    rw [freeList, Step.bounded, ih]
    congr 1
    funext found
    cases found <;> rfl

/-- A round of destroying. -/
theorem free_round (sound : s.Sound others) {n e : Nat} {rest : List (Nat × Nat)}
    (chain : s.dir.lists.chain l = (n, e) :: rest) :
    ∃ s', free n s = .ok () s' ∧ s'.Sound others ∧ TakesOff l none s s' := by
  have hm : (n, e) ∈ s.dir.lists.chain l := by
    rw [chain]
    exact List.mem_cons_self ..
  have first : s.dir.lists.values l = e :: rest.map (·.2) := by
    rw [SlotLists.values, chain]
    rfl
  obtain ⟨lists, pool, label, run, sound', -, -, values⟩ := free_freed sound hm
  refine ⟨_, run, sound', .of_values (e := e) sound.standing.sound sound'.standing.sound ?_
    (fun k hk => ?_) rfl⟩
  · show _ = e :: lists.values l
    rw [values, first, List.erase_cons_head]
  · have off : e ∉ s.dir.lists.values k := fun h => hk
      (sound.standing.unique (SlotLists.mem_values.mpr ⟨n, hm⟩) h)
    show lists.values k = _
    rw [values, List.erase_of_not_mem off, if_neg (by simp)]

/-- Destroying a list ends, and leaves the other list as it is. -/
theorem freeList_drains (sound : s.Sound others) (hl : l < 2) :
    ∃ path t, Drains (onLists (SlotLists.front l)) free l none s path t ∧ t.Sound others ∧
      ∀ k, k ≠ l → t.dir.lists.values k = s.dir.lists.values k := by
  refine drains_of_rounds (fun _ inv => inv.1.standing.sound) ?_ ?_ ⟨sound, fun _ _ => rfl⟩
  · rintro x ⟨sound, -⟩ chain
    rw [front_run sound hl, chain]
    rfl
  · rintro x n e rest ⟨sound, same⟩ chain
    obtain ⟨x', worked, sound', takes⟩ := free_round sound chain
    obtain ⟨_, _, others⟩ := takes.first
    refine ⟨n, x, x', ?_, worked, ⟨sound', fun k hk => ?_⟩, takes⟩
    · rw [front_run sound hl, chain]
      rfl
    · rw [others k hk, if_neg (by simp), same k hk]

/-- The end of an update is this loop on the stale list, and a purge is it on the stale list and
    then on the active one, which is by then as it was. -/
theorem purge_drains (sound : s.Sound others) :
    ∃ path t path' u,
      Drains (onLists (SlotLists.front s.dir.active.other.list)) free s.dir.active.other.list none
        s path t ∧
      Drains (onLists (SlotLists.front s.dir.active.list)) free s.dir.active.list none t path' u ∧
      t.dir.lists.values s.dir.active.list = s.dir.activeEntries ∧
      (s.dir.updating = true → endUpdate s = .ok path.length
        { t with
          dir := { t.dir with updating := false }
          log := t.log.emit (.endedUpdate s.dir.id s.dir.generation path.length) }) ∧
      purge s = .ok (path.length + path'.length)
        { u with log := u.log.emitAll (purgeTrace s.dir.id (path.length + path'.length)) } := by
  obtain ⟨path, t, drains, sound', others_left⟩ :=
    freeList_drains sound s.dir.active.other.list_lt
  obtain ⟨path', u, drains', -⟩ := freeList_drains sound' s.dir.active.list_lt
  have active_left : t.dir.lists.values s.dir.active.list = s.dir.activeEntries :=
    others_left _ s.dir.active.other_list_ne.symm
  have run : freeList s.dir.active.other.list s.dir.staleCount s = .ok path.length t := by
    rw [freeList_eq]
    exact drains.bounded
  have run' : freeList s.dir.active.list s.dir.activeCount t = .ok path'.length u := by
    -- the bound was read before the first loop, which has left the active list alone
    have count : s.dir.activeCount = t.dir.lists.count s.dir.active.list := by
      rw [sound.standing.activeCount_eq, sound'.standing.sound.count_values, active_left]
    rw [freeList_eq, count]
    exact drains'.bounded
  refine ⟨path, t, path', u, drains, drains', active_left, fun updating => ?_, ?_⟩
  · rw [endUpdate, Step.get_bind, if_pos updating, Step.bind_of_ok run]
    rfl
  · rw [purge, Step.get_bind, Step.bind_of_ok run, Step.bind_of_ok run', purgeTrace]
    by_cases some_freed : path.length + path'.length > 0
    · rw [if_pos some_freed, if_pos some_freed]
      rfl
    · rw [if_neg some_freed, if_neg some_freed]
      rfl

end Opened

end NameCache
