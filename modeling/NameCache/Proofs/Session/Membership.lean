/-
  Every entry is in its three places or in none.

  An entry has a link into its directory's lists and one into each table of the directory's pool,
  and the slots behind the links are used again by other entries, of other directories too.  In
  every session each entry that was inserted is either live and `InPlace`, which is to say in each
  of the three places once, under its link, and nowhere else, or it is `Gone` for good; and no slot
  is left that holds anything but a live entry (`Session.live_or_gone`).
-/
import NameCache.Proofs.Places
import NameCache.Proofs.Session.Answers
import NameCache.Proofs.Session.Fates

namespace NameCache

/-- Whether some node holds a value, be it found on a list or only in its slot. -/
def SlotLists.Has (s : SlotLists Nat) (e : Nat) : Prop :=
  (∃ n, s.value? n = some e) ∨ ∃ l, e ∈ s.values l

theorem SlotLists.Has.mem {s : SlotLists Nat} {e : Nat} (has : s.Has e) (sound : s.Sound) :
    ∃ l, e ∈ s.values l := by
  rcases has with ⟨n, hn⟩ | listed
  · obtain ⟨l, hm⟩ := (SlotLists.Sound.value?_eq_some_iff sound).mp hn
    exact ⟨l, SlotLists.mem_values.mpr ⟨n, hm⟩⟩
  · exact listed

namespace World

variable {w : World} {dir dir' : Directory} {d d' e p l : Nat} {kind : NameKind}

/-- A live entry of directory `d`, in its three places and nowhere else. -/
structure InPlace (w : World) (d e : Nat) (label : String) : Prop where
  key : (w.entries.entry e).key = some label
  /-- It is once on one of the two lists of the directory, and once in each table of its pool, in
      the bucket of its hash; and in no other table. -/
  here : ∃ dir, w.directory? d = some dir ∧
    (∃ l n, l < 2 ∧ dir.lists.places e = [(l, n)] ∧ (w.entries.entry e).dirNode = some n) ∧
    (∀ kind, ∃ n, ((w.pool dir.pool).table kind).places e =
        [(((w.pool dir.pool).table kind).lockIndex ((w.entries.entry e).hash kind),
          ((w.pool dir.pool).table kind).listIndex ((w.entries.entry e).hash kind), n)] ∧
      (w.entries.entry e).bucketNode kind = some n) ∧
    ∀ p kind, p ≠ dir.pool → ((w.pool p).table kind).places e = []
  /-- It is on no list of another directory. -/
  elsewhere : ∀ d' dir', d' ≠ d → w.directory? d' = some dir' → dir'.lists.places e = []

/-- A destroyed entry, on no list and in no table. -/
structure Gone (w : World) (e : Nat) : Prop where
  destroyed : (w.entries.entry e).Destroyed
  lists : ∀ d dir, w.directory? d = some dir → dir.lists.places e = []
  tables : ∀ p kind, ((w.pool p).table kind).places e = []

namespace Sound

/-- What is on a list of a directory is held by it. -/
theorem holds (sound : w.Sound) (here : w.directory? d = some dir) (he : e ∈ dir.lists.values l) :
    dir.Holds e := by
  obtain ⟨n, hm⟩ := SlotLists.mem_values.mp he
  exact Opened.holds_of_mem (s := w.opened dir) (sound.hosts.standing d dir here) hm

/-- An entry without a key is destroyed. -/
theorem destroyed_of_dead (sound : w.Sound) (he : e < w.entries.size)
    (dead : (w.entries.entry e).live = false) : (w.entries.entry e).Destroyed := by
  refine (sound.hosts.fate e he).resolve_left ?_
  rintro ⟨d, dir, here, held⟩
  have live := (sound.hosts.opened here).holds_live held
  exact Bool.false_ne_true (dead.symm.trans live)

/-- What is held is live. -/
theorem live (sound : w.Sound) (here : w.directory? d = some dir) (held : dir.Holds e) :
    (w.entries.entry e).live = true :=
  (sound.hosts.opened here).holds_live held

/-- A table holds what the directories on its pool hold. -/
theorem table (sound : w.Sound) (p : Nat) (kind : NameKind) :
    (∃ order, ((w.pool p).table kind).Sound w.entries order ∧
      ((w.pool p).table kind).kind = kind ∧ ∀ e, e ∈ order ↔ Family.HeldOn w.directory? p e) ∨
    ((w.pool p).table kind).stripes = #[] := by
  by_cases hp : p < w.pools.size
  · obtain ⟨order, linked, -, members⟩ := sound.hosts.pools p hp
    exact .inl ⟨order, (linked.table kind).1, (linked.table kind).2, members⟩
  · have none : w.pool p = noPool := by
      rw [pool, Array.getElem?_eq_none (Nat.not_lt.mp hp)]
      rfl
    rw [none]
    cases kind <;> exact .inr rfl

/-- An entry that no directory on a pool holds is in neither table of it. -/
theorem places_table_eq_nil (sound : w.Sound) (off : ¬ Family.HeldOn w.directory? p e) :
    ((w.pool p).table kind).places e = [] := by
  rcases sound.table p kind with ⟨order, linked, -, members⟩ | none
  · exact linked.places_eq_nil fun he => off ((members e).mp he)
  · rw [Table.places, none]
    rfl

/-- An entry that a directory does not hold is on neither of its lists. -/
theorem places_lists_eq_nil (sound : w.Sound) (here : w.directory? d = some dir)
    (off : ¬ dir.Holds e) : dir.lists.places e = [] :=
  SlotLists.places_eq_nil fun _ he => off (sound.holds here he)

/-- What a directory holds is in its places. -/
theorem inPlace (sound : w.Sound) (here : w.directory? d = some dir) (held : dir.Holds e)
    {label : String} (key : (w.entries.entry e).key = some label) : w.InPlace d e label := by
  refine ⟨key, ⟨dir, here, ?_, fun kind => ?_, fun p kind hp => ?_⟩, fun d' dir' hd there => ?_⟩
  · have standing := sound.hosts.standing d dir here
    have listed : ∃ l, e ∈ dir.lists.values l := by
      rcases held with h | h
      · exact ⟨_, h⟩
      · exact ⟨_, h⟩
    obtain ⟨l, he⟩ := listed
    obtain ⟨n, places, link⟩ := standing.places_eq he
    exact ⟨l, n, standing.values_lt he, places, link⟩
  · rcases sound.table dir.pool kind with ⟨order, linked, kind_eq, members⟩ | none
    · obtain ⟨n, places, link⟩ := linked.places_eq ((members e).mpr ⟨d, dir, here, rfl, held⟩)
      rw [Table.hashOf, kind_eq] at places
      rw [kind_eq] at link
      exact ⟨n, places, link⟩
    · obtain ⟨order, linked, -, -⟩ := sound.hosts.pools _ (sound.hosts.pool_lt d dir here)
      have locks := (linked.table kind).1.geometry.locks_pos
      rw [← (linked.table kind).1.stripes, none] at locks
      exact absurd locks (Nat.lt_irrefl _)
  · -- what holds it on another pool would be another directory, and no two hold one entry
    refine sound.places_table_eq_nil ?_
    rintro ⟨d', dir', there, rfl, held'⟩
    obtain rfl := sound.hosts.disjoint d d' dir dir' e here there held held'
    obtain rfl := Option.some.inj (here.symm.trans there)
    exact hp rfl
  · exact sound.places_lists_eq_nil there fun held' =>
      hd (sound.hosts.disjoint d' d dir' dir e there here held' held)

/-- A destroyed entry is in no place. -/
theorem gone (sound : w.Sound) (destroyed : (w.entries.entry e).Destroyed) : w.Gone e := by
  have off : ∀ d dir, w.directory? d = some dir → ¬ dir.Holds e := fun d dir here held => by
    have live := sound.live here held
    rw [destroyed.not_live] at live
    exact Bool.false_ne_true live
  refine ⟨destroyed, fun d dir here => sound.places_lists_eq_nil here (off d dir here),
    fun p kind => sound.places_table_eq_nil ?_⟩
  rintro ⟨d, dir, here, -, held⟩
  exact off d dir here held

/-- Every node of a directory holds a live entry. -/
theorem live_of_listed (sound : w.Sound) (here : w.directory? d = some dir)
    (has : dir.lists.Has e) : (w.entries.entry e).live = true := by
  obtain ⟨l, he⟩ := has.mem (sound.hosts.standing d dir here).sound
  exact sound.live here (sound.holds here he)

/-- Every node of a table holds a live entry. -/
theorem live_of_linked (sound : w.Sound) {i : Nat} {stripe : SlotLists Nat}
    (hs : ((w.pool p).table kind).stripes[i]? = some stripe) (has : stripe.Has e) :
    (w.entries.entry e).live = true := by
  rcases sound.table p kind with ⟨order, linked, -, members⟩ | none
  · obtain ⟨l, he⟩ := has.mem (linked.lists i stripe hs).1
    obtain ⟨n, hm⟩ := SlotLists.mem_values.mp he
    obtain ⟨d, dir, here, -, held⟩ := (members e).mp (linked.of_mem hs hm).1
    exact sound.live here held
  · rw [none] at hs
    exact absurd hs (by rintro ⟨⟩)

end Sound

end World

variable {w : World} {past : List Moment}

/-- Every entry that an insertion answered with is in its three places or gone; nothing else than
live entries is in any place; and an entry that once held no key is gone from then on. -/
theorem Session.live_or_gone (session : Session past w) :
    (∀ m ∈ past, ∀ d label name encname e g,
      m.request.command = .within d (.insert label name encname) →
      (m.request.answer m.before).1.reply = .ok (.inserted e g) →
      w.InPlace d e label ∨ w.Gone e) ∧
    (∀ d dir e, w.directory? d = some dir → dir.lists.Has e →
      e < w.entries.size ∧ (w.entries.entry e).live = true) ∧
    (∀ p kind (i : Nat) (stripe : SlotLists Nat) e,
      ((w.pool p).table kind).stripes[i]? = some stripe → stripe.Has e →
      e < w.entries.size ∧ (w.entries.entry e).live = true) ∧
    (∀ m ∈ past, ∀ e, e < m.before.entries.size → (m.before.entries.entry e).live = false →
      w.Gone e) := by
  have sound := session.sound
  refine ⟨?_, ?_, ?_, ?_⟩
  · intro m was d label name encname e g command replied
    obtain ⟨deed, here, action, inserted⟩ := m.inserts command replied
    have keeps := session.keeps (List.mem_flatMap.mpr ⟨m, was, here⟩) action inserted
    rcases keeps.fate with ⟨dir, there, held⟩ | gone
    · have live := sound.live there held
      have key := keeps.key.resolve_right fun none => by
        rw [Entry.live, none] at live
        exact Bool.false_ne_true live
      exact .inl (sound.inPlace there held key)
    · exact .inr (sound.gone gone)
  · intro d dir e here has
    have live := sound.live_of_listed here has
    exact ⟨Entries.lt_of_live live, live⟩
  · intro p kind i stripe e hs has
    have live := sound.live_of_linked hs has
    exact ⟨Entries.lt_of_live live, live⟩
  · intro m was e he dead
    obtain ⟨earlier, before⟩ := session.earlier was
    have destroyed := before.sound.destroyed_of_dead he dead
    obtain ⟨-, same⟩ := session.destroyed was he destroyed
    exact sound.gone (same.symm ▸ destroyed)

/-- A scan that confirms one entry and not the other leaves the one in its places and the other
gone. -/
theorem Session.live_or_gone_after_scan :
    ∃ past w, Session past w ∧ w.Gone 0 ∧ w.InPlace 0 1 "k" := by
  have whole := Session.small.answers Request.scan
  obtain ⟨inserted, -, -, -⟩ := Session.live_or_gone whole
  have first := inserted _ (World.small.mem_moments [] (Request.scan.take 1) _
    (Request.scan.drop 2)) 0 "k" [1] [2] 0 0 rfl rfl
  have second := inserted _ (World.small.mem_moments [] (Request.scan.take 2) _
    (Request.scan.drop 3)) 0 "k" [3] [4] 1 0 rfl rfl
  refine ⟨_, _, whole, first.resolve_left fun here => ?_, second.resolve_right fun gone => ?_⟩
  · exact absurd here.key (by decide +kernel)
  · exact absurd gone.destroyed.key (by decide +kernel)

end NameCache
