/-
  Where an entry stands.

  `SlotLists.places` and `Table.places` search every list of every stripe and give each node that
  holds the entry, so that "once and nowhere else" is an equation: the answer has one element.
  They are for saying so; no operation searches.
-/
import NameCache.Proofs.Directory.Standing
import NameCache.Proofs.Pool
import NameCache.Proofs.Sums

namespace NameCache

namespace SlotLists

variable {s : SlotLists Nat} {e k n : Nat}

/-- The lists that an entry is on, each with its node there. -/
def places (s : SlotLists Nat) (e : Nat) : List (Nat × Nat) :=
  (List.range s.heads.size).flatMap fun l =>
    ((s.chain l).filter fun x => x.2 = e).map fun x => (l, x.1)

/-- An entry that is on no list has no place. -/
theorem places_eq_nil (off : ∀ l, e ∉ s.values l) : s.places e = [] := by
  refine List.flatMap_eq_nil_iff.mpr fun l _ => ?_
  rw [List.map_eq_nil_iff, List.filter_eq_nil_iff]
  intro x hx
  simp only [decide_eq_true_eq]
  rintro rfl
  exact off l (mem_values.mpr ⟨x.1, hx⟩)

/-- An entry that no other node holds has one place. -/
theorem places_eq_singleton (sound : s.Sound) (hm : (n, e) ∈ s.chain k)
    (only : ∀ l m, (m, e) ∈ s.chain l → m = n) : s.places e = [(k, n)] := by
  have hk : k < s.heads.size := sound.lt_of_mem hm
  rw [places, flatMap_range_single hk]
  · have here : (s.chain k).filter (fun x => x.2 = e) = [(n, e)] := by
      have nodup : (s.chain k).Nodup :=
        (List.pairwise_map.mp (sound.nodup k)).imp fun ne heq => ne (congrArg Prod.fst heq)
      have alone : [(n, e)].Nodup := List.nodup_cons.mpr ⟨List.not_mem_nil, List.nodup_nil⟩
      refine List.perm_singleton.mp
        ((List.perm_ext_iff_of_nodup (nodup.filter _) alone).mpr fun x => ?_)
      rw [List.mem_filter, List.mem_singleton, decide_eq_true_iff]
      constructor
      · rintro ⟨hx, rfl⟩
        exact Prod.ext (only k x.1 hx) rfl
      · rintro rfl
        exact ⟨hm, rfl⟩
    rw [here]
    rfl
  · intro l _ hl
    rw [List.map_eq_nil_iff, List.filter_eq_nil_iff]
    rintro ⟨m, d⟩ hx heq
    obtain rfl : d = e := of_decide_eq_true heq
    obtain rfl := only l m hx
    exact hl (sound.unique hm hx).1

end SlotLists

namespace Standing

variable {lists : SlotLists Nat} {entries : Entries} {e l : Nat}

/-- A listed entry has one place, which its link names. -/
theorem places_eq (standing : Standing lists entries) (he : e ∈ lists.values l) :
    ∃ n, lists.places e = [(l, n)] ∧ (entries.entry e).dirNode = some n := by
  obtain ⟨n, hm⟩ := SlotLists.mem_values.mp he
  refine ⟨n, SlotLists.places_eq_singleton standing.sound hm fun k m hd => ?_,
    standing.link l n e hm⟩
  exact (standing.only hm k (m, e) hd).mpr rfl

end Standing

namespace Table

variable {t : Table} {entries : Entries} {order : List Nat} {e : Nat}

/-- The lists of the stripes that an entry is on, each with its node there. -/
def places (t : Table) (e : Nat) : List (Nat × Nat × Nat) :=
  (List.range t.stripes.size).flatMap fun i =>
    (t.stripes[i]?.elim [] fun stripe => stripe.places e).map fun x => (i, x)

/-- An entry that is not linked has no place. -/
theorem Sound.places_eq_nil (sound : t.Sound entries order) (he : e ∉ order) :
    t.places e = [] := by
  refine List.flatMap_eq_nil_iff.mpr fun i _ => ?_
  cases hs : t.stripes[i]? with
  | none => rfl
  | some stripe =>
    have none : stripe.places e = [] := SlotLists.places_eq_nil fun l hl => by
      rw [sound.values i stripe l hs] at hl
      exact he (List.mem_filter.mp hl).1
    rw [Option.elim_some, none, List.map_nil]

/-- A linked entry has one place, the one of its hash, which its link names. -/
theorem Sound.places_eq (sound : t.Sound entries order) (he : e ∈ order) :
    ∃ n, t.places e = [(t.lockIndex (t.hashOf entries e), t.listIndex (t.hashOf entries e), n)] ∧
      (entries.entry e).bucketNode t.kind = some n := by
  obtain ⟨stripe, n, hs, hm, link⟩ := sound.place he
  obtain ⟨lists, -⟩ := sound.lists _ _ hs
  refine ⟨n, ?_, link⟩
  have here : stripe.places e = [(t.listIndex (t.hashOf entries e), n)] := by
    refine SlotLists.places_eq_singleton lists hm fun l m hd => ?_
    exact (Option.some.inj (link.symm.trans (sound.link _ _ _ _ _ hs hd))).symm
  rw [places, flatMap_range_single (Array.getElem?_eq_some_iff.mp hs).1]
  · rw [hs, Option.elim_some, here]
    rfl
  · -- in another stripe it would belong there
    intro i _ hi
    cases hx : t.stripes[i]? with
    | none => rfl
    | some other =>
      have none : other.places e = [] := SlotLists.places_eq_nil fun l hl => by
        obtain ⟨m, hd⟩ := SlotLists.mem_values.mp hl
        exact hi (sound.of_mem hx hd).2.1.symm
      rw [Option.elim_some, none, List.map_nil]

end Table

namespace Pool

variable {p : Pool} {entries : Entries} {order : List Nat} {e : Nat}

/-- Both tables of a pool are in order, each for its kind of name. -/
theorem Sound.table (sound : p.Sound entries order) (kind : NameKind) :
    (p.table kind).Sound entries order ∧ (p.table kind).kind = kind := by
  cases kind with
  | plain => exact ⟨sound.names, sound.names_kind⟩
  | encrypted => exact ⟨sound.encnames, sound.encnames_kind⟩

end Pool

end NameCache
