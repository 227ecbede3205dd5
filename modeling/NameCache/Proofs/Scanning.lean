/-
  A scan of a list, link by link.

  `Scans s p cursor seen found` follows the links of `s` from a cursor until a value is accepted, a
  link leads to no node, or there is no further link; `seen` is the values it came by and `found` the
  one accepted.  It has no bound, so along links that go in a circle there would be no scan.

  The links of sound slot lists spell out lists, so a scan that starts at the head of a list comes by
  the values of the list, in order and without turning back, as far as it has to go
  (`Sound.scans`).  In a bucket no entry stands twice, so a lookup looks at none twice
  (`Table.Sound.looks`).
-/
import NameCache.Proofs.Table

namespace NameCache

namespace SlotLists

variable {α : Type} {s : SlotLists α} {ls : Nat → List (Nat × α)} {loose cursor : Option Nat}
  {l : Nat} {p : α → Bool} {seen seen' : List α} {found found' : Option α}

/-- From the cursor on, the scan comes by the values `seen` and ends with the one found. -/
inductive Scans (s : SlotLists α) (p : α → Bool) : Option Nat → List α → Option α → Prop
  /-- The end of the list. -/
  | ended : Scans s p none [] none
  /-- A link to no node is an end as well. -/
  | lost {i : Nat} (gone : s.node? i = none) : Scans s p (some i) [] none
  | accepted {i : Nat} {n : Node α} (there : s.node? i = some n) (yes : p n.value = true) :
    Scans s p (some i) [n.value] (some n.value)
  | refused {i : Nat} {n : Node α} {seen : List α} {found : Option α}
    (there : s.node? i = some n) (no : p n.value = false) (rest : Scans s p n.next seen found) :
    Scans s p (some i) (n.value :: seen) found

/-- A scan that ends has one way to do so. -/
theorem Scans.unique (one : s.Scans p cursor seen found) (other : s.Scans p cursor seen' found') :
    seen' = seen ∧ found' = found := by
  induction one generalizing seen' with
  | ended =>
    cases other
    exact ⟨rfl, rfl⟩
  | lost gone =>
    cases other with
    | lost _ => exact ⟨rfl, rfl⟩
    | accepted there _ => exact absurd (gone.symm.trans there) (by simp)
    | refused there _ _ => exact absurd (gone.symm.trans there) (by simp)
  | accepted there yes =>
    cases other with
    | lost gone => exact absurd (gone.symm.trans there) (by simp)
    | accepted there' _ =>
      obtain rfl := Option.some.inj (there.symm.trans there')
      exact ⟨rfl, rfl⟩
    | refused there' no _ =>
      obtain rfl := Option.some.inj (there.symm.trans there')
      exact absurd (yes.symm.trans no) (by simp)
  | refused there no _ ih =>
    cases other with
    | lost gone => exact absurd (gone.symm.trans there) (by simp)
    | accepted there' yes =>
      obtain rfl := Option.some.inj (there.symm.trans there')
      exact absurd (yes.symm.trans no) (by simp)
    | refused there' _ rest =>
      obtain rfl := Option.some.inj (there.symm.trans there')
      obtain ⟨rfl, rfl⟩ := ih rest
      exact ⟨rfl, rfl⟩

/-- A scan from some place of a list on. -/
theorem Threaded.scans (t : Threaded s ls loose) (p : α → Bool) (post : List (Nat × α)) :
    ∀ pre, ls l = pre ++ post → s.Scans p (post.head?.map (·.1))
      ((post.map (·.2)).take ((post.map (·.2)).findIdx p + 1)) ((post.map (·.2)).find? p) := by
  -- along what is left of the list; `pre` is what the scan has passed
  induction post with
  | nil => exact fun _ _ => .ended
  | cons x rest ih =>
    obtain ⟨i, v⟩ := x
    intro pre split
    have there := t.node l pre i v rest split
    rw [List.map_cons, List.findIdx_cons]
    cases verdict : p v with
    | true =>
      rw [List.find?_cons_of_pos verdict]
      exact .accepted there verdict
    | false =>
      rw [List.find?_cons_of_neg (by simp [verdict])]
      exact .refused there verdict (ih (pre ++ [(i, v)]) (by rw [split]; simp))

/-- A scan of a whole list. -/
theorem Sound.scans (sound : s.Sound) (hl : l < s.heads.size) (p : α → Bool) :
    ∃ cursor, front l s = .ok cursor s ∧ s.Scans p cursor
      ((s.values l).take ((s.values l).findIdx p + 1)) ((s.values l).find? p) :=
  ⟨_, sound.front_run hl, Threaded.scans sound p (s.chain l) [] rfl⟩

end SlotLists

namespace Table

variable {t : Table} {entries : Entries} {order : List Nat}

/-- A lookup in the bucket of a hash looks at the entries `seen` one after another, and is over. -/
structure Looks (t : Table) (hash : UInt32) (p : Nat → Bool) (seen : List Nat) : Prop where
  /-- It is the one scan from the head of the bucket, and finds what the scan finds. -/
  scan : ∃ stripe cursor, t.stripes[t.lockIndex hash]? = some stripe ∧
    SlotLists.front (t.listIndex hash) stripe = .ok cursor stripe ∧
    ∀ seen' found, stripe.Scans p cursor seen' found ↔ seen' = seen ∧ found = t.find hash p
  /-- It goes through the bucket in order, up to the first entry accepted or to the end. -/
  reach : seen = (t.bucket hash).take ((t.bucket hash).findIdx p + 1)
  once : seen.Nodup

/-- A lookup is over after at most one look at each entry of the bucket. -/
theorem Sound.looks (sound : t.Sound entries order) (hash : UInt32) (p : Nat → Bool) :
    ∃ seen, t.Looks hash p seen := by
  obtain ⟨stripe, there⟩ := sound.stripe hash
  obtain ⟨linked, heads⟩ := sound.lists _ stripe there
  have bucket : t.bucket hash = stripe.values (t.listIndex hash) := by rw [Table.bucket, there]
  obtain ⟨cursor, front, scans⟩ := linked.scans (heads ▸ listIndex_lt sound.geometry hash) p
  rw [← bucket] at scans
  refine ⟨_, ⟨stripe, cursor, there, front, fun seen' found => ⟨scans.unique, ?_⟩⟩, rfl, ?_⟩
  · rintro ⟨rfl, rfl⟩
    exact scans
  · have nodup : (t.bucket hash).Nodup := by
      rw [sound.bucket_eq]
      exact sound.nodup.filter _
    exact nodup.sublist (List.take_sublist _ _)

end Table

end NameCache
