/-
  What deeds add to the counters.

  Counters wrap, so they are compared with numbers modulo 2^64.  `Tally.Adds` says by how much the
  counters moved; amounts add up along a sequence of steps (`Adds.trans`), and the counter of
  entries moves by what was made less what was destroyed, whichever way round the two happened.

  The length of a directory knows nothing of counters, and yet moves by the same amounts: what is
  held or destroyed after an action is what was held or made (`Ledger.holds_or_destroyed`), and no
  entry is there twice.  `Chain.counts` puts the two together, for any number of deeds.
-/
import NameCache.Proofs.Directory.Keys

namespace NameCache

namespace Tally

/-- The counters after `n` entries were destroyed. -/
def addFrees (t : Tally) (n : Nat) : Tally :=
  { t with frees := t.frees + UInt64.ofNat n, entries := t.entries - UInt64.ofNat n }

theorem addFrees_zero (t : Tally) : t.addFrees 0 = t := by
  have frees : t.frees + UInt64.ofNat 0 = t.frees := UInt64.add_zero _
  have entries : t.entries - UInt64.ofNat 0 = t.entries := UInt64.sub_zero _
  rw [addFrees, frees, entries]

theorem addFrees_succ (t : Tally) (n : Nat) : t.addFrees (n + 1) = t.addFree.addFrees n := by
  have frees : t.frees + UInt64.ofNat (n + 1) = t.frees + 1 + UInt64.ofNat n := by
    rw [UInt64.ofNat_add]
    show t.frees + (UInt64.ofNat n + 1) = _
    grind
  have entries : t.entries - UInt64.ofNat (n + 1) = t.entries - 1 - UInt64.ofNat n := by
    rw [UInt64.ofNat_add]
    show t.entries - (UInt64.ofNat n + 1) = _
    grind
  rw [addFrees, frees, entries]
  rfl

/-- By how much counters have moved: so many entries were made and destroyed, and so many lookups
    found an entry or none. -/
structure Adds (t t' : Tally) (made freed hits misses : Nat) : Prop where
  inserts : t'.inserts = t.inserts + UInt64.ofNat made
  frees : t'.frees = t.frees + UInt64.ofNat freed
  entries : t'.entries = t.entries + UInt64.ofNat made - UInt64.ofNat freed
  hits : t'.hits = t.hits + UInt64.ofNat hits
  misses : t'.misses = t.misses + UInt64.ofNat misses

namespace Adds

variable {t t' t'' : Tally} {made freed hits misses made' freed' hits' misses' : Nat}

/-- Counters of demotions apart, nothing was counted. -/
theorem of_same (inserts : t'.inserts = t.inserts) (frees : t'.frees = t.frees)
    (entries : t'.entries = t.entries) (hits : t'.hits = t.hits) (misses : t'.misses = t.misses) :
    t.Adds t' 0 0 0 0 where
  inserts := inserts.trans (UInt64.add_zero _).symm
  frees := frees.trans (UInt64.add_zero _).symm
  entries := by
    show _ = t.entries + 0 - 0
    rw [UInt64.sub_zero, UInt64.add_zero, entries]
  hits := hits.trans (UInt64.add_zero _).symm
  misses := misses.trans (UInt64.add_zero _).symm

theorem refl (t : Tally) : t.Adds t 0 0 0 0 := of_same rfl rfl rfl rfl rfl

theorem trans (first : t.Adds t' made freed hits misses)
    (second : t'.Adds t'' made' freed' hits' misses') :
    t.Adds t'' (made + made') (freed + freed') (hits + hits') (misses + misses') where
  inserts := by
    rw [second.inserts, first.inserts, UInt64.ofNat_add, UInt64.add_assoc]
  frees := by
    rw [second.frees, first.frees, UInt64.ofNat_add, UInt64.add_assoc]
  entries := by
    rw [second.entries, first.entries, UInt64.ofNat_add, UInt64.ofNat_add]
    grind
  hits := by
    rw [second.hits, first.hits, UInt64.ofNat_add, UInt64.add_assoc]
  misses := by
    rw [second.misses, first.misses, UInt64.ofNat_add, UInt64.add_assoc]

theorem of_frees (t : Tally) (n : Nat) : t.Adds (t.addFrees n) 0 n 0 0 where
  inserts := (UInt64.add_zero _).symm
  frees := rfl
  entries := by
    show _ = t.entries + 0 - _
    rw [UInt64.add_zero]
    rfl
  hits := (UInt64.add_zero _).symm
  misses := (UInt64.add_zero _).symm

theorem of_insert (t : Tally) : t.Adds t.addInsert 1 0 0 0 where
  inserts := rfl
  frees := (UInt64.add_zero _).symm
  entries := (UInt64.sub_zero _).symm
  hits := (UInt64.add_zero _).symm
  misses := (UInt64.add_zero _).symm

end Adds

end Tally

/-- How many entries an answer says were made. -/
def Outcome.makes : Outcome → Nat
  | .made _ => 1
  | _ => 0

/-- How many lookups an answer says found an entry. -/
def Outcome.hits : Outcome → Nat
  | .found (some _) => 1
  | _ => 0

/-- How many lookups an answer says found none. -/
def Outcome.misses : Outcome → Nat
  | .found none => 1
  | _ => 0

namespace Ledger

variable {l : Ledger} {e : Nat} {es : List Nat} {g : UInt64} {expiry : Expiry} {action : Action}
  {outcome : Outcome}

theorem tally_dropAll : (l.dropAll es).tally = l.tally.addFrees es.length := by
  induction es generalizing l with
  | nil => exact l.tally.addFrees_zero.symm
  | cons e rest ih =>
    rw [List.length_cons, Tally.addFrees_succ]
    exact ih (l := l.drop e)

theorem adds_expire (l : Ledger) (expiry : Expiry) :
    l.tally.Adds (l.expire expiry).tally 0 0 0 0 := .of_same rfl rfl rfl rfl rfl

/-- Confirming counts at most a demotion. -/
theorem adds_confirm : l.tally.Adds (l.confirm expiry e).tally 0 0 0 0 := by
  rw [confirm, park, enrol]
  split
  · exact .refl _
  · split
    · split
      · exact l.adds_expire expiry
      · exact l.adds_expire expiry
    · split
      · exact .refl _
      · exact .refl _

theorem adds_beginUpdate : l.tally.Adds (l.beginUpdate expiry g).tally 0 0 0 0 := by
  rw [beginUpdate]
  split
  · split
    · exact .refl _
    · exact l.adds_expire expiry
  · exact .refl _

theorem adds_abortUpdate : l.tally.Adds (l.abortUpdate expiry).tally 0 0 0 0 := by
  rw [abortUpdate]
  split
  · exact l.adds_expire expiry
  · exact .refl _

/-- A lookup is counted by what it found. -/
theorem adds_counted (found : Option Nat) : l.tally.Adds (l.counted (.found found)).tally 0 0
    (Outcome.found found).hits (Outcome.found found).misses := by
  cases found with
  | none => exact ⟨(UInt64.add_zero _).symm, (UInt64.add_zero _).symm,
      (Tally.Adds.refl l.tally).entries, (UInt64.add_zero _).symm, rfl⟩
  | some e => exact ⟨(UInt64.add_zero _).symm, (UInt64.add_zero _).symm,
      (Tally.Adds.refl l.tally).entries, rfl, (UInt64.add_zero _).symm⟩

/-- An accepted action counts what it made, destroyed and found. -/
theorem adds_act (answers : l.Answers expiry action outcome) :
    l.tally.Adds (l.act expiry action outcome).tally outcome.makes (l.destroyed action).length
      outcome.hits outcome.misses := by
  cases action with
  | insert label name encname =>
    obtain rfl : outcome = .made l.entries.size := answers
    have placed : l.tally.Adds
        ((l.make label name encname).confirm expiry l.entries.size).tally 0 0 0 0 :=
      adds_confirm (l := l.make label name encname)
    exact placed.trans (.of_insert _)
  | update e =>
    obtain rfl : outcome = .done := answers
    exact adds_confirm
  | lookupName name =>
    obtain ⟨found, rfl⟩ := answers
    exact adds_counted found
  | lookupEncname encname =>
    obtain ⟨found, rfl⟩ := answers
    exact adds_counted found
  | beginUpdate hold g =>
    obtain rfl : outcome = _ := answers
    exact adds_beginUpdate
  | endUpdate =>
    obtain rfl : outcome = _ := answers
    show l.tally.Adds l.endUpdate.tally 0 (if l.updating then l.stale else []).length 0 0
    rw [endUpdate]
    split
    · show l.tally.Adds (l.dropAll l.stale).tally 0 l.stale.length 0 0
      rw [tally_dropAll]
      exact .of_frees _ _
    · exact .refl _
  | abortUpdate =>
    obtain rfl : outcome = .done := answers
    exact adds_abortUpdate
  | purge =>
    obtain rfl : outcome = _ := answers
    show l.tally.Adds l.purge.tally 0 (l.stale ++ l.active).length 0 0
    rw [purge_eq, tally_dropAll]
    exact .of_frees _ _

/-! ## How many entries are held -/

theorem mem_destroyed_purge : e ∈ l.destroyed .purge ↔ l.Holds e :=
  List.mem_append.trans or_comm

/-- What is destroyed is not held any more. -/
theorem not_holds_act (tidy : l.Tidy) (h : e ∈ l.destroyed action) :
    ¬ (l.act expiry action outcome).Holds e := by
  cases action with
  | endUpdate =>
    replace h : e ∈ (if l.updating then l.stale else []) := h
    split at h
    case isTrue scanning => exact fun held => ((holds_endUpdate tidy).mp held).2 ⟨scanning, h⟩
    case isFalse => exact absurd h List.not_mem_nil
  | purge => exact not_holds_purge tidy
  | _ => exact absurd h List.not_mem_nil

/-- What was held, or is made, is held or destroyed. -/
theorem holds_or_destroyed (tidy : l.Tidy) (accepts : l.Accepts action)
    (answers : l.Answers expiry action outcome) :
    (l.act expiry action outcome).Holds e ∨ e ∈ l.destroyed action ↔
      l.Holds e ∨ outcome = .made e := by
  rcases act_gains tidy accepts answers with ⟨⟨label, name, encname, rfl⟩, rfl, -, holds⟩ |
    ⟨unmade, -, kept⟩
  · rw [holds, Outcome.made.injEq, eq_comm (a := e)]
    exact or_iff_left List.not_mem_nil
  · refine ⟨fun h => .inl (h.elim (kept e) holds_of_destroyed), fun h => ?_⟩
    have held := h.resolve_right (unmade e)
    -- only the end of an update and a purge let go of anything, and that is what they destroy
    by_cases purges : action = .purge
    · rw [purges]
      exact .inr (mem_destroyed_purge.mpr held)
    · by_cases ends : action = .endUpdate ∧ l.updating = true ∧ e ∈ l.stale
      · obtain ⟨rfl, scanning, stale⟩ := ends
        refine .inr ?_
        show e ∈ if l.updating then l.stale else []
        rwa [if_pos scanning]
      · exact .inl (holds_act tidy held (fun h gone => ends ⟨h, gone⟩) purges)

/-- The entries held afterwards and those destroyed are as many as were held before and made. -/
theorem length_act (tidy : l.Tidy) (tidy' : (l.act expiry action outcome).Tidy)
    (accepts : l.Accepts action) (answers : l.Answers expiry action outcome) :
    (l.act expiry action outcome).active.length + (l.act expiry action outcome).stale.length +
      (l.destroyed action).length = l.active.length + l.stale.length + outcome.makes := by
  have count : ∀ l : Ledger, (l.destroyed .purge).length = l.active.length + l.stale.length :=
    fun l => List.length_append.trans (Nat.add_comm _ _)
  have parts : ((l.act expiry action outcome).destroyed .purge ++ l.destroyed action).Nodup := by
    refine List.nodup_append.mpr
      ⟨nodup_destroyed tidy' .purge, nodup_destroyed tidy action, ?_⟩
    rintro e held d gone rfl
    exact not_holds_act tidy gone (mem_destroyed_purge.mp held)
  have members : ∀ e, e ∈ (l.act expiry action outcome).destroyed .purge ++ l.destroyed action ↔
      l.Holds e ∨ outcome = .made e := by
    intro e
    rw [List.mem_append, mem_destroyed_purge]
    exact holds_or_destroyed tidy accepts answers
  rw [← count, ← count, ← List.length_append]
  rcases act_gains tidy accepts answers with ⟨-, rfl, -⟩ | ⟨unmade, -⟩
  · -- what is made is new
    have new : (l.entries.size :: l.destroyed .purge).Nodup := by
      refine List.nodup_cons.mpr ⟨fun h => ?_, nodup_destroyed tidy .purge⟩
      exact absurd (tidy.fit _ (mem_destroyed_purge.mp h)).bound (Nat.lt_irrefl _)
    refine ((List.perm_ext_iff_of_nodup parts new).mpr fun e => ?_).length_eq
    rw [members, List.mem_cons, mem_destroyed_purge, Outcome.made.injEq, eq_comm (a := e)]
    exact or_comm
  · have none : outcome.makes = 0 := by
      cases outcome with
      | made e => exact absurd rfl (unmade e)
      | _ => rfl
    rw [none]
    refine ((List.perm_ext_iff_of_nodup parts (nodup_destroyed tidy .purge)).mpr
      fun e => ?_).length_eq
    rw [members, mem_destroyed_purge]
    exact or_iff_left (unmade e)

end Ledger

/-! ## What deeds add -/

namespace Deed

/-- Whether it looked an entry up and found one. -/
def finds (deed : Deed) : Bool := deed.outcome matches some (.found (some _))

/-- Whether it looked an entry up and found none. -/
def misses (deed : Deed) : Bool := deed.outcome matches some (.found none)

/-- Whether it looked an entry up and was not refused. -/
def looksUp (deed : Deed) : Bool :=
  (deed.action matches .lookupName _ | .lookupEncname _) && deed.outcome.isSome

theorem insertions_append (more deeds : List Deed) :
    insertions (more ++ deeds) = insertions more ++ insertions deeds := List.filterMap_append

/-- The counters have moved by what some deeds made and found, and by so many entries destroyed. -/
def Counts (deeds : List Deed) (freed : Nat) (t t' : Tally) : Prop :=
  t.Adds t' (insertions deeds).length freed (deeds.countP finds) (deeds.countP misses)

theorem Counts.append {deeds more : List Deed} {freed freed' : Nat} {t t' t'' : Tally}
    (earlier : Counts deeds freed t t') (later : Counts more freed' t' t'') :
    Counts (more ++ deeds) (freed + freed') t t'' := by
  have whole := Tally.Adds.trans earlier later
  rw [Counts, insertions_append, List.length_append, List.countP_append, List.countP_append,
    Nat.add_comm (List.length _), Nat.add_comm (List.countP finds more),
    Nat.add_comm (List.countP misses more)]
  exact whole

variable {deed : Deed} {deeds : List Deed} {s s' : Opened} {others : Nat → Prop}

/-- One deed is counted. -/
theorem counts (sound : deed.before.Sound others) :
    Counts [deed] (deed.before.ledger.destroyed deed.action).length deed.before.tally
      deed.after.tally ∧
    deed.after.dir.length + (deed.before.ledger.destroyed deed.action).length =
      deed.before.dir.length + (insertions [deed]).length := by
  rcases deed.cases sound with ⟨refuses, none, same⟩ |
    ⟨accepts, outcome, answer, answers, ledger, sound', -⟩
  · -- what is refused makes, finds and destroys nothing
    have nothing : insertions [deed] = [] := by
      rw [insertions, List.filterMap_cons, inserted, none]
      rfl
    have finds : [deed].countP finds = 0 := by rw [List.countP_singleton, Deed.finds, none]; rfl
    have misses : [deed].countP misses = 0 := by rw [List.countP_singleton, Deed.misses, none]; rfl
    rw [Counts, nothing, finds, misses, Ledger.destroyed_of_refused refuses, same]
    exact ⟨.refl _, rfl⟩
  · have made : (insertions [deed]).length = outcome.makes := by
      rw [insertions, List.filterMap_cons, inserted, answer]
      cases outcome <;> rfl
    have finds : [deed].countP finds = outcome.hits := by
      rw [List.countP_singleton, Deed.finds, answer]
      cases outcome with
      | found e => cases e <;> rfl
      | _ => rfl
    have misses : [deed].countP misses = outcome.misses := by
      rw [List.countP_singleton, Deed.misses, answer]
      cases outcome with
      | found e => cases e <;> rfl
      | _ => rfl
    rw [Counts, made, finds, misses]
    have tally : deed.after.tally = (deed.before.ledger.act .swap deed.action outcome).tally :=
      congrArg Ledger.tally ledger
    refine ⟨tally ▸ Ledger.adds_act answers, ?_⟩
    have lists := Ledger.length_act sound.ledger.toTidy (ledger ▸ sound'.ledger.toTidy) accepts
      answers
    rw [← ledger] at lists
    rw [sound.standing.length_eq, sound'.standing.length_eq]
    exact lists

/-- A lookup that was not refused found an entry or none. -/
theorem looksUp_eq (sound : deed.before.Sound others) :
    [deed].countP looksUp = [deed].countP finds + [deed].countP misses := by
  rw [List.countP_singleton, List.countP_singleton, List.countP_singleton, looksUp, finds, misses]
  rcases deed.cases sound with ⟨-, none, -⟩ | ⟨-, outcome, answer, answers, -⟩
  · rw [none, Option.isSome_none, Bool.and_false]
    rfl
  · rw [answer, Option.isSome_some, Bool.and_true]
    cases action : deed.action with
    | lookupName name =>
      rw [action] at answers
      obtain ⟨found, rfl⟩ := answers
      cases found <;> rfl
    | lookupEncname encname =>
      rw [action] at answers
      obtain ⟨found, rfl⟩ := answers
      cases found <;> rfl
    | _ =>
      rw [action] at answers
      obtain rfl : outcome = _ := answers
      rfl

/-- So lookups that were not refused are the hits and the misses together. -/
theorem countP_looksUp (sound : ∀ deed ∈ deeds, ∃ others, deed.before.Sound others) :
    deeds.countP looksUp = deeds.countP finds + deeds.countP misses := by
  induction deeds with
  | nil => rfl
  | cons deed rest ih =>
    obtain ⟨⟨others, first⟩, sound⟩ := List.forall_mem_cons.mp sound
    have one := looksUp_eq first
    have more := ih sound
    rw [List.countP_cons, List.countP_cons, List.countP_cons]
    rw [List.countP_singleton, List.countP_singleton, List.countP_singleton] at one
    omega

end Deed

/-- Deeds without a break are counted one by one. -/
theorem Chain.counts {s s' : Opened} {deeds : List Deed} {others : Nat → Prop}
    (chain : Chain s deeds s') (sound : s.Sound others) :
    ∃ freed, Deed.Counts deeds freed s.tally s'.tally ∧
      s'.dir.length + freed = s.dir.length + (Deed.insertions deeds).length := by
  induction chain with
  | nil => exact ⟨0, .refl _, rfl⟩
  | @cons deeds s₁ action chain ih =>
    obtain ⟨freed, earlier, before⟩ := ih
    have sound₁ : Opened.Sound (Deed.before ⟨s₁, action⟩) others := (chain.leads sound).1
    obtain ⟨later, after⟩ := Deed.counts sound₁
    refine ⟨_, earlier.append later, ?_⟩
    have parts : (Deed.insertions (⟨s₁, action⟩ :: deeds)).length =
        (Deed.insertions [⟨s₁, action⟩]).length + (Deed.insertions deeds).length := by
      rw [← List.length_append, ← Deed.insertions_append]
      rfl
    rw [parts]
    replace after : (Deed.after ⟨s₁, action⟩).dir.length + (s₁.ledger.destroyed action).length =
      s₁.dir.length + (Deed.insertions [⟨s₁, action⟩]).length := after
    show (Deed.after ⟨s₁, action⟩).dir.length + (freed + (s₁.ledger.destroyed action).length) = _
    omega

end NameCache
