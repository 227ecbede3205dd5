/-
  A table of buckets in stripes is one list of entries, newest first.

  `Sound t entries order` says that every bucket of `t` holds the entries of `order` that belong
  there, in the order of `order`, and that the link of each names its node.  Linking an entry puts
  it at the front of `order`, unlinking takes it out (`insert_spec`, `remove_spec`), whatever the
  geometry.  So a lookup for entries of one hash finds the first of them in `order` (`find_eq`), and
  the geometry shows nowhere.

  The one fact about geometries is that a stripe and a list in it are as good as a bucket: the
  locks divide the buckets, so the remainder and the quotient of a bucket by the locks determine it.
-/
import NameCache.Proofs.Entries
import NameCache.Proofs.SlotLists
import NameCache.Table

namespace NameCache

namespace Table

variable {t : Table} {entries entries' : Entries} {order : List Nat} {e : Nat} {hash : UInt32}

/-! ## Geometry -/

namespace Geometry

variable {buckets locks : Nat}

theorem locks_pos (g : Geometry buckets locks) : 0 < locks := by
  obtain ⟨-, ⟨k, rfl⟩, -⟩ := g
  exact Nat.two_pow_pos k

theorem dvd (g : Geometry buckets locks) : locks ∣ buckets := by
  obtain ⟨⟨m, rfl⟩, ⟨k, rfl⟩, hle⟩ := g
  exact Nat.pow_dvd_pow 2 ((Nat.pow_le_pow_iff_right (by decide)).mp hle)

theorem buckets_pos (g : Geometry buckets locks) : 0 < buckets :=
  Nat.lt_of_lt_of_le g.locks_pos g.2.2

end Geometry

theorem lockIndex_lt (g : Geometry t.buckets t.locks) (hash : UInt32) :
    t.lockIndex hash < t.locks :=
  Nat.mod_lt _ g.locks_pos

theorem listIndex_lt (g : Geometry t.buckets t.locks) (hash : UInt32) :
    t.listIndex hash < t.buckets / t.locks := by
  have hlt : t.bucketIndex hash < t.buckets := Nat.mod_lt _ g.buckets_pos
  rw [listIndex, Nat.div_lt_iff_lt_mul g.locks_pos, Nat.div_mul_cancel g.dvd]
  exact hlt

/-- The lock of a hash is the lock of its bucket. -/
theorem lockIndex_eq (g : Geometry t.buckets t.locks) (hash : UInt32) :
    t.lockIndex hash = t.bucketIndex hash % t.locks := by
  rw [lockIndex, bucketIndex, Nat.mod_mod_of_dvd _ g.dvd]

/-- Two hashes have the same list of the same stripe exactly if they have the same bucket. -/
theorem same_place_iff (g : Geometry t.buckets t.locks) (hash hash' : UInt32) :
    (t.lockIndex hash = t.lockIndex hash' ∧ t.listIndex hash = t.listIndex hash') ↔
      t.bucketIndex hash = t.bucketIndex hash' := by
  rw [lockIndex_eq g, lockIndex_eq g, listIndex, listIndex]
  constructor
  · rintro ⟨hmod, hdiv⟩
    rw [← Nat.div_add_mod (t.bucketIndex hash) t.locks, hmod, hdiv, Nat.div_add_mod]
  · intro h
    rw [h]
    exact ⟨rfl, rfl⟩

/-! ## Soundness -/

/-- The hash by which the table has entry `e`. -/
def hashOf (t : Table) (entries : Entries) (e : Nat) : UInt32 := (entries.entry e).hash t.kind

/-- Whether entry `e` belongs on list `l` of stripe `i`. -/
def Belongs (t : Table) (entries : Entries) (i l e : Nat) : Prop :=
  t.lockIndex (t.hashOf entries e) = i ∧ t.listIndex (t.hashOf entries e) = l

instance (t : Table) (entries : Entries) (i l e : Nat) : Decidable (t.Belongs entries i l e) :=
  inferInstanceAs (Decidable (_ ∧ _))

/-- The buckets hold the entries of `order`, each in its place and under its link. -/
structure Sound (t : Table) (entries : Entries) (order : List Nat) : Prop where
  geometry : Geometry t.buckets t.locks
  stripes : t.stripes.size = t.locks
  lists : ∀ (i : Nat) (stripe : SlotLists Nat), t.stripes[i]? = some stripe →
    stripe.Sound ∧ stripe.heads.size = t.buckets / t.locks
  values : ∀ (i : Nat) (stripe : SlotLists Nat) l, t.stripes[i]? = some stripe →
    stripe.values l = order.filter fun e => t.Belongs entries i l e
  link : ∀ (i : Nat) (stripe : SlotLists Nat) l n e,
    t.stripes[i]? = some stripe → (n, e) ∈ stripe.chain l →
    (entries.entry e).bucketNode t.kind = some n
  nodup : order.Nodup

/-- The kind, the buckets and the locks of a table. -/
def shape (t : Table) : NameKind × Nat × Nat := (t.kind, t.buckets, t.locks)

/-- The same kind and the same geometry. -/
def SameShape (t t' : Table) : Prop :=
  t'.kind = t.kind ∧ t'.buckets = t.buckets ∧ t'.locks = t.locks

namespace Sound

theorem stripe (sound : t.Sound entries order) (hash : UInt32) :
    ∃ stripe, t.stripes[t.lockIndex hash]? = some stripe := by
  have hlt := lockIndex_lt sound.geometry hash
  rw [← sound.stripes] at hlt
  exact ⟨_, Array.getElem?_eq_getElem hlt⟩

/-- An entry of the order is on the list it belongs to, under its link. -/
theorem place (sound : t.Sound entries order) (he : e ∈ order) :
    ∃ stripe n, t.stripes[t.lockIndex (t.hashOf entries e)]? = some stripe ∧
      (n, e) ∈ stripe.chain (t.listIndex (t.hashOf entries e)) ∧
      (entries.entry e).bucketNode t.kind = some n := by
  obtain ⟨stripe, hs⟩ := sound.stripe (t.hashOf entries e)
  have hmem : e ∈ stripe.values (t.listIndex (t.hashOf entries e)) := by
    rw [sound.values _ _ _ hs]
    exact List.mem_filter.mpr ⟨he, decide_eq_true ⟨rfl, rfl⟩⟩
  obtain ⟨⟨n, e⟩, hn, rfl⟩ := List.mem_map.mp hmem
  exact ⟨stripe, n, hs, hn, sound.link _ _ _ _ _ hs hn⟩

/-- What is on a list is in the order and belongs there. -/
theorem of_mem (sound : t.Sound entries order) {i l n : Nat} {stripe : SlotLists Nat}
    (hs : t.stripes[i]? = some stripe) (hm : (n, e) ∈ stripe.chain l) :
    e ∈ order ∧ t.Belongs entries i l e := by
  have hmem : e ∈ stripe.values l := List.mem_map.mpr ⟨(n, e), hm, rfl⟩
  rw [sound.values i stripe l hs] at hmem
  obtain ⟨he, hb⟩ := List.mem_filter.mp hmem
  exact ⟨he, of_decide_eq_true hb⟩

/-- Soundness depends on the hashes and the links of the linked entries alone. -/
theorem congr (sound : t.Sound entries order)
    (hash : ∀ e ∈ order, (entries'.entry e).hash t.kind = (entries.entry e).hash t.kind)
    (link : ∀ e ∈ order,
      (entries'.entry e).bucketNode t.kind = (entries.entry e).bucketNode t.kind) :
    t.Sound entries' order := by
  constructor
  case geometry => exact sound.geometry
  case stripes => exact sound.stripes
  case lists => exact sound.lists
  case values =>
    intro i stripe l hs
    rw [sound.values i stripe l hs]
    refine List.filter_congr fun e he => decide_eq_decide.mpr ?_
    have same : t.hashOf entries' e = t.hashOf entries e := hash e he
    simp only [Belongs, same]
  case link =>
    intro i stripe l n e hs hm
    rw [link e (sound.of_mem hs hm).1]
    exact sound.link i stripe l n e hs hm
  case nodup => exact sound.nodup

end Sound

/-- A new table holds nothing. -/
theorem sound_empty {kind : NameKind} {buckets locks : Nat} (g : Geometry buckets locks)
    (entries : Entries) : (empty kind buckets locks).Sound entries [] := by
  have stripe_eq : ∀ (i : Nat) (stripe : SlotLists Nat),
      (empty kind buckets locks).stripes[i]? = some stripe →
      stripe = .empty (buckets / locks) := by
    intro i stripe hs
    rw [empty, Array.getElem?_replicate] at hs
    split at hs
    · exact (Option.some.inj hs).symm
    · exact absurd hs (by simp)
  constructor
  case geometry => exact g
  case stripes => exact Array.size_replicate
  case lists =>
    intro i stripe hs
    rw [stripe_eq i stripe hs]
    exact ⟨SlotLists.sound_empty _, Array.size_replicate⟩
  case values =>
    intro i stripe l hs
    rw [stripe_eq i stripe hs]
    rfl
  case link =>
    intro i stripe l n e hs hm
    rw [stripe_eq i stripe hs] at hm
    exact absurd hm List.not_mem_nil
  case nodup => exact List.nodup_nil

/-! ## Linking and unlinking -/

/-- The table with another stripe `i`. -/
def withStripe (t : Table) (i : Nat) (stripe : SlotLists Nat) : Table :=
  { t with stripes := t.stripes.setIfInBounds i stripe }

theorem stripes_withStripe {i : Nat} {stripe : SlotLists Nat} (hs : t.stripes[i]? = some stripe)
    (stripe' : SlotLists Nat) (j : Nat) :
    (t.withStripe i stripe').stripes[j]? = if j = i then some stripe' else t.stripes[j]? := by
  obtain ⟨hi, -⟩ := Array.getElem?_eq_some_iff.mp hs
  rw [withStripe, Array.getElem?_setIfInBounds]
  by_cases hj : j = i
  · subst hj
    rw [if_pos rfl, if_pos hi, if_pos rfl]
  · rw [if_neg (fun h => hj h.symm), if_neg hj]

theorem onStripe_of_ok {α : Type} {op : Step (SlotLists Nat) α} {a : α}
    {stripe stripe' : SlotLists Nat} (hs : t.stripes[t.lockIndex hash]? = some stripe)
    (run : op stripe = .ok a stripe') :
    onStripe hash op t = .ok a (t.withStripe (t.lockIndex hash) stripe') := by
  rw [onStripe, hs]
  exact Step.focus_of_ok run

/-- A link is no part of what an entry is hashed by. -/
theorem hashOf_modify (t : Table) (entries : Entries) (e : Nat) (node : Option Nat) (d : Nat) :
    t.hashOf (entries.modify e (·.withBucketNode t.kind node)) d = t.hashOf entries d :=
  Entries.property_modify (·.hash t.kind) (fun _ => Entry.hash_withBucketNode) d

theorem bucketNode_modify_ne {d : Nat} (h : d ≠ e) (node : Option Nat) :
    (Entries.entry (entries.modify e (·.withBucketNode t.kind node)) d).bucketNode t.kind =
      (entries.entry d).bucketNode t.kind := by
  rw [Entries.entry_modify_ne h]

/-- A stripe was changed so that its lists hold what belongs there of another order. -/
theorem Sound.restripe (sound : t.Sound entries order) {stripe stripe' : SlotLists Nat} {i : Nat}
    {order' : List Nat} (hs : t.stripes[i]? = some stripe) (sound' : stripe'.Sound)
    (heads : stripe'.heads.size = stripe.heads.size) (nodup : order'.Nodup)
    (hashes : ∀ e, t.hashOf entries' e = t.hashOf entries e)
    (here : ∀ l, stripe'.values l = order'.filter fun e => t.Belongs entries i l e)
    (elsewhere : ∀ j l, j ≠ i → (order'.filter fun e => t.Belongs entries j l e) =
      order.filter fun e => t.Belongs entries j l e)
    (link : ∀ l n e, (n, e) ∈ stripe'.chain l → (entries'.entry e).bucketNode t.kind = some n)
    (links : ∀ (j : Nat) (x : SlotLists Nat) l n e,
      j ≠ i → t.stripes[j]? = some x → (n, e) ∈ x.chain l →
      (entries'.entry e).bucketNode t.kind = (entries.entry e).bucketNode t.kind) :
    (t.withStripe i stripe').Sound entries' order' := by
  have belongs : ∀ j l e, (t.withStripe i stripe').Belongs entries' j l e ↔
      t.Belongs entries j l e := by
    intro j l e
    show t.lockIndex (t.hashOf entries' e) = j ∧ t.listIndex (t.hashOf entries' e) = l ↔ _
    rw [hashes]
    rfl
  have stripes := stripes_withStripe hs stripe'
  constructor
  case geometry => exact sound.geometry
  case stripes => exact (Array.size_setIfInBounds).trans sound.stripes
  case lists =>
    intro j x hx
    rw [stripes] at hx
    split at hx
    · obtain rfl := Option.some.inj hx
      exact ⟨sound', heads.trans (sound.lists i stripe hs).2⟩
    · exact sound.lists j x hx
  case values =>
    intro j x l hx
    simp only [belongs]
    rw [stripes] at hx
    by_cases hj : j = i
    · subst hj
      rw [if_pos rfl] at hx
      obtain rfl := Option.some.inj hx
      exact here l
    · rw [if_neg hj] at hx
      rw [elsewhere j l hj]
      exact sound.values j x l hx
  case link =>
    intro j x l n e hx hm
    rw [stripes] at hx
    by_cases hj : j = i
    · rw [if_pos hj] at hx
      obtain rfl := Option.some.inj hx
      exact link l n e hm
    · rw [if_neg hj] at hx
      exact (links j x l n e hj hx hm).trans (sound.link j x l n e hx hm)
  case nodup => exact nodup

/-- Linking an entry that is not linked yet puts it in front. -/
theorem Sound.insert_spec (sound : t.Sound entries order) (he : e < entries.size)
    (new : e ∉ order) :
    ∃ n t', insert e ⟨entries, t⟩ =
        .ok () ⟨entries.modify e (·.withBucketNode t.kind (some n)), t'⟩ ∧
      t'.Sound (entries.modify e (·.withBucketNode t.kind (some n))) (e :: order) ∧
      t.SameShape t' := by
  obtain ⟨stripe, hs⟩ := sound.stripe (t.hashOf entries e)
  obtain ⟨lists, nheads⟩ := sound.lists _ _ hs
  have hl : t.listIndex (t.hashOf entries e) < stripe.heads.size := by
    rw [nheads]
    exact listIndex_lt sound.geometry _
  obtain ⟨n, stripe', run, lists', nheads', -, -, -, -, chain⟩ := lists.pushFront_spec hl e
  refine ⟨n, t.withStripe (t.lockIndex (t.hashOf entries e)) stripe', ?_, ?_, rfl, rfl, rfl⟩
  · rw [insert, Step.get_bind]
    refine (Step.bind_of_ok (Step.focus_of_ok ?_)).trans rfl
    rw [push, Step.get_bind]
    exact onStripe_of_ok hs run
  · refine sound.restripe hs lists' nheads' (List.nodup_cons.mpr ⟨new, sound.nodup⟩)
      (t.hashOf_modify entries e _) (fun l => ?_) (fun j l hj => ?_) (fun l m d hm => ?_)
      (fun j x l m d hj hx hm => ?_)
    · -- in its own stripe the entry comes first on its list, and the other lists stay
      have old : (stripe.chain l).map (·.2) = order.filter fun e => t.Belongs entries _ l e :=
        sound.values _ _ l hs
      rw [SlotLists.values_of_pushed chain, List.filter_cons, old]
      by_cases hll : l = t.listIndex (t.hashOf entries e)
      · rw [if_pos hll, if_pos (by simp [Belongs, hll])]
      · rw [if_neg hll, if_neg (fun h => hll (of_decide_eq_true h).2.symm)]
    · rw [List.filter_cons, if_neg (fun h => hj (of_decide_eq_true h).1.symm)]
    · -- the entry has the node it just got, any other node is an older entry's
      rw [chain, SlotLists.pushed] at hm
      by_cases hd : d = e
      · subst hd
        rw [Entries.entry_modify_self he, Entry.bucketNode_withBucketNode_self]
        split at hm
        · rcases List.mem_cons.mp hm with heq | hold
          · rw [(Prod.mk.inj heq).1]
          · exact absurd (sound.of_mem hs hold).1 new
        · exact absurd (sound.of_mem hs hm).1 new
      · rw [bucketNode_modify_ne hd]
        split at hm
        · rcases List.mem_cons.mp hm with heq | hold
          · exact absurd (Prod.mk.inj heq).2 hd
          · exact sound.link _ _ _ _ _ hs hold
        · exact sound.link _ _ _ _ _ hs hm
    · have hd : d ≠ e := by
        rintro rfl
        exact new (sound.of_mem hx hm).1
      exact bucketNode_modify_ne hd _

/-- Unlinking a linked entry takes it out, the others staying in their order. -/
theorem Sound.remove_spec (sound : t.Sound entries order) (he : e ∈ order) :
    ∃ t', remove e ⟨entries, t⟩ =
        .ok () ⟨entries.modify e (·.withBucketNode t.kind none), t'⟩ ∧
      t'.Sound (entries.modify e (·.withBucketNode t.kind none)) (order.erase e) ∧
      t.SameShape t' := by
  obtain ⟨stripe, n, hs, hn, hlink⟩ := sound.place he
  obtain ⟨lists, -⟩ := sound.lists _ _ hs
  obtain ⟨stripe', run, lists', nheads', -, -, chain⟩ := lists.remove_spec hn
  have erase : order.erase e = order.filter fun d => d ≠ e := by
    rw [sound.nodup.erase_eq_filter]
    exact List.filter_congr fun d _ => by rw [Bool.eq_iff_iff]; simp
  -- the node is the entry's and no other's
  have node_iff : ∀ l m d, (m, d) ∈ stripe.chain l → (m = n ↔ d = e) := by
    intro l m d hm
    refine ⟨fun h => ?_, fun h => ?_⟩
    · subst h
      exact (lists.unique hn hm).2
    · subst h
      have := sound.link _ _ _ _ _ hs hm
      rw [hlink] at this
      exact (Option.some.inj this).symm
  refine ⟨t.withStripe (t.lockIndex (t.hashOf entries e)) stripe', ?_, ?_, rfl, rfl, rfl⟩
  · rw [remove, Step.get_bind]
    simp only [hlink]
    refine (Step.bind_of_ok (Step.focus_of_ok (onStripe_of_ok hs run))).trans ?_
    rw [if_pos rfl]
    rfl
  · refine sound.restripe hs lists' nheads' (sound.nodup.erase e)
      (t.hashOf_modify entries e _) (fun l => ?_) (fun j l hj => ?_) (fun l m d hm => ?_)
      (fun j x l m d hj hx hm => ?_)
    · -- in its own stripe the entry is taken off its list, and it is on no other
      calc stripe'.values l
          = (stripe.values l).filter fun d => d ≠ e :=
            (congrArg (fun ls => (ls l).map (·.2)) chain).trans
              (SlotLists.map_dropped fun x hx => node_iff l x.1 x.2 hx)
        _ = (order.erase e).filter fun d => t.Belongs entries _ l d := by
            rw [sound.values _ _ l hs, erase, List.filter_filter, List.filter_filter]
            exact List.filter_congr fun d _ => Bool.and_comm ..
    · rw [erase, List.filter_filter]
      refine List.filter_congr fun d _ => ?_
      by_cases hd : d = e
      · subst hd
        have away : ¬ t.Belongs entries j l d := fun h => hj h.1.symm
        simp [away]
      · simp [hd]
    · rw [chain, SlotLists.dropped] at hm
      obtain ⟨hold, hne⟩ := List.mem_filter.mp hm
      rw [bucketNode_modify_ne (mt (node_iff l m d hold).mpr (of_decide_eq_true hne))]
      exact sound.link _ _ _ _ _ hs hold
    · have hd : d ≠ e := by
        rintro rfl
        exact hj (sound.of_mem hx hm).2.1.symm
      exact bucketNode_modify_ne hd _

/-! ## Looking -/

/-- A bucket holds the entries of the order that have the bucket, in order. -/
theorem Sound.bucket_eq (sound : t.Sound entries order) (hash : UInt32) :
    t.bucket hash =
      order.filter fun e => t.bucketIndex (t.hashOf entries e) = t.bucketIndex hash := by
  obtain ⟨stripe, hs⟩ := sound.stripe hash
  rw [bucket, hs]
  show stripe.values (t.listIndex hash) = _
  rw [sound.values _ _ _ hs]
  exact List.filter_congr fun e _ =>
    decide_eq_decide.mpr (same_place_iff sound.geometry (t.hashOf entries e) hash)

/-- A lookup that accepts entries of the hash only finds the first of them in the order: the
    geometry does not matter. -/
theorem Sound.find_eq (sound : t.Sound entries order) {p : Nat → Bool}
    (hp : ∀ e ∈ order, p e → t.hashOf entries e = hash) : t.find hash p = order.find? p := by
  rw [find, sound.bucket_eq, ← List.head?_filter, List.filter_filter, ← List.head?_filter]
  refine congrArg List.head? (List.filter_congr fun e he => ?_)
  by_cases h : p e
  · simp [h, hp e he h]
  · simp [h]

/-! ## How many entries -/

namespace Sound

/-- A stripe has the entries of its lock. -/
theorem total_eq (sound : t.Sound entries order) {i : Nat} {stripe : SlotLists Nat}
    (hs : t.stripes[i]? = some stripe) :
    stripe.total = (order.filter fun e => t.lockIndex (t.hashOf entries e) = i).length := by
  obtain ⟨lists, heads⟩ := sound.lists i stripe hs
  have each : ∀ l, (stripe.chain l).length = ((order.filter fun e =>
      t.lockIndex (t.hashOf entries e) = i).filter fun e =>
        t.listIndex (t.hashOf entries e) = l).length := by
    intro l
    have values := congrArg List.length (sound.values i stripe l hs)
    rw [SlotLists.values, List.length_map] at values
    rw [values, List.filter_filter]
    refine congrArg List.length (List.filter_congr fun e _ => ?_)
    rw [Bool.eq_iff_iff, Bool.and_eq_true, decide_eq_true_iff, decide_eq_true_iff,
      decide_eq_true_iff]
    exact and_comm
  rw [lists.total_eq, heads, sumTo_congr fun l _ => each l]
  exact sumTo_length_filter fun e _ => listIndex_lt sound.geometry _

/-- A table has as many entries as the order. -/
theorem length_eq (sound : t.Sound entries order) : t.length = order.length := by
  have totals : ∀ i, i < t.stripes.toList.length →
      (t.stripes.toList[i]?).elim 0 SlotLists.total =
        (order.filter fun e => t.lockIndex (t.hashOf entries e) = i).length := by
    intro i hi
    have there : t.stripes[i]? = some t.stripes.toList[i] := by
      rw [← Array.getElem?_toList, List.getElem?_eq_getElem hi]
    rw [List.getElem?_eq_getElem hi]
    exact sound.total_eq there
  rw [length, ← Array.foldl_toList, foldl_eq_sumTo, Nat.zero_add, sumTo_congr totals,
    Array.length_toList, sound.stripes]
  exact sumTo_length_filter fun e _ => lockIndex_lt sound.geometry _

end Sound

end Table

end NameCache
