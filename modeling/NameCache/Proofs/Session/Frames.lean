/-
  No operation reaches another directory.

  The lists of one directory are its own, but the tables of its pool are not: other directories
  have entries in the same buckets, even some with the same number.  Still, a request that works on
  one directory leaves every other one as it is, leaves the entries inserted through the others
  untouched and in their places, and keeps the order in the buckets (`Session.untouched`), be it
  carried out, refused or stopped on the way.

  Where an entry stands in a table follows from its links, its hashes and the geometry of the
  table; so it is enough that none of these changes.  The order of a bucket is the order of the
  entries' numbers, which is why two buckets that have the same entries have them in the same order.
-/
import NameCache.Proofs.Directory.Finding
import NameCache.Proofs.Directory.Work
import NameCache.Proofs.Session.Membership

namespace NameCache

open Step

variable {w w' : World} {past : List Moment} {dir dir' : Directory} {d d' e p : Nat} {c : Command}
  {s s' : Opened} {deeds : List Deed} {label : String}

/-! ## The directory that a command works on -/

/-- The directory that a command works on, if it is about one. -/
def Command.worksOn : Command → Option Nat
  | .within d _ => some d
  | .confirm d _ => some d
  | .destroy d _ => some d
  | .drop d => some d
  | _ => none

theorem Command.deeds_of_other (other : c.worksOn ≠ some d) : c.deeds w d = [] := by
  cases c with
  | within d' action => exact deeds_within_ne (fun h => other (congrArg some h.symm)) action
  | confirm d' encname => exact deeds_confirm_ne (fun h => other (congrArg some h.symm)) encname
  | _ => rfl

/-- A command that does not work on a directory leaves it as it is, and what it holds. -/
theorem Command.Passage.elsewhere (passage : c.Passage w w') (sound : w.Sound)
    (other : c.worksOn ≠ some d) (here : w.directory? d = some dir) :
    w'.directory? d = some dir ∧
      ∀ e, dir.Holds e → w'.entries.entry e = w.entries.entry e := by
  cases passage with
  | quiet quiet _ =>
    rw [quiet.directory?, quiet.entries]
    exact ⟨here, fun _ _ => rfl⟩
  | taken _ _ _ _ => exact ⟨here, fun _ _ => rfl⟩
  | given _ _ _ => exact ⟨here, fun _ _ => rfl⟩
  | made quiet _ _ _ _ =>
    rw [World.directory?_push, Family.set_ne, quiet.directory?]
    · exact ⟨here, fun e _ => congrArg (·.entry e) quiet.entries⟩
    · rw [quiet.directories]
      exact Nat.ne_of_lt (World.lt_of_directory? here)
  | @worked d₁ dir₁ s there chain _ =>
    by_cases same : d = d₁
    · -- nothing was done to it
      subst same
      obtain rfl := Option.some.inj (here.symm.trans there)
      rw [Command.deeds_of_other other] at chain
      cases chain
      rw [World.put_opened here]
      exact ⟨here, fun _ _ => rfl⟩
    · rw [World.directory?_put there, Family.set_ne same]
      have leads := (chain.leads (sound.hosts.opened there)).2
      exact ⟨here, fun e held => sound.hosts.other_same there leads here same held⟩
  | @gone d₁ dir₁ s _ there _ leads _ _ quiet drops _ =>
    have ne : d ≠ d₁ := by
      rintro rfl
      rcases drops with rfl | ⟨m, rfl⟩ <;> exact other rfl
    rw [quiet.directory?, quiet.entries, World.directory?_without there, Family.set_ne ne]
    exact ⟨here, fun e held => sound.hosts.other_same there leads here ne held⟩

theorem Moment.elsewhere (m : Moment) (sound : m.before.Sound)
    (other : m.request.command.worksOn ≠ some d) (here : m.before.directory? d = some dir) :
    m.after.directory? d = some dir ∧
      ∀ e, dir.Holds e → m.after.entries.entry e = m.before.entries.entry e := by
  rcases m.passage sound with ⟨-, passage⟩ | ⟨same, -⟩
  · exact passage.elsewhere sound other here
  · rw [same]
    exact ⟨here, fun _ _ => rfl⟩

/-! ## The shape of the pools -/

/-- Deeds keep the shape of the pool. -/
theorem Chain.keeps_shape (chain : Chain s deeds s') :
    (s'.dir.pool, s'.pool.shape) = (s.dir.pool, s.pool.shape) := by
  induction chain with
  | nil => rfl
  | cons action _ ih => exact ((action.work .swap).keeps_shape _).trans ih

namespace World

/-- Putting a pool back that has kept its shape keeps all shapes. -/
theorem shape_closed (same : (s.dir.pool, s.pool.shape) = (dir.pool, (w.pool dir.pool).shape))
    (p : Nat) : ((w.closed s).pool p).shape = (w.pool p).shape := by
  obtain ⟨number, shape⟩ := Prod.mk.inj same
  by_cases inside : s.dir.pool < w.pools.size
  · rw [pool_closed s inside]
    by_cases h : p = s.dir.pool
    · rw [if_pos h, shape, h, number]
    · rw [if_neg h]
  · -- nothing is written beyond the pools
    have pools : (w.closed s).pools = w.pools :=
      Array.setIfInBounds_eq_of_size_le (Nat.not_lt.mp inside)
    rw [pool, pools, ← pool]

theorem keeps_takeBack (provision : Provision) (q : Nat) :
    Step.Keeps (fun w : World => (w.pool p).shape) (takeBack provision q) := by
  have emits : ∀ event, Step.Keeps (fun w : World => (w.pool p).shape) (emit event) :=
    fun _ => .modify fun _ => rfl
  cases provision with
  | shared shared =>
    show Step.Keeps _ (if shared ≠ q then throw Fault.foreignPool else pure ())
    split
    · exact .throw _
    · exact .pure _
  | separate buckets locks =>
    refine .bind .get fun w => ?_
    dsimp only
    split
    · split
      · exact .bind (emits _) fun _ => emits _
      · exact emits _
    · exact emits _

theorem keeps_dropDirectory (d : Nat) (dir : Directory) :
    Step.Keeps (fun w : World => (w.pool p).shape) (dropDirectory d dir) :=
  .bind (.modify fun _ => rfl) fun _ =>
    .focus (Opened.work_leave dir.id).keeps_shape fun _ _ same => shape_closed same p

end World

theorem Running.keeps_perform {α γ : Type} {f : World → γ} {op : Step World α} (kept : Keeps f op) :
    Keeps f (Running.perform op) := by
  intro w
  have same := kept w
  rw [settled] at same
  rw [settled, Running.perform]
  cases run : op w with
  | ok a w' =>
    rw [run] at same
    exact same
  | error fault w' =>
    rw [run] at same
    exact same

theorem Running.keeps_need {α γ : Type} {f : World → γ} (what : Missing) (find : World → Option α) :
    Keeps f (Running.need what find) := by
  refine .bind .get fun w => ?_
  split
  · exact .pure _
  · exact .throw _

/-- A directory that goes leaves the shape of the pools. -/
theorem Command.keeps_drop (d : Nat) :
    Keeps (fun w : World => (w.pool p).shape) (Command.run (.drop d)) :=
  .bind (Running.keeps_need _ _) fun dir =>
    .bind (Running.keeps_perform (World.keeps_dropDirectory d dir)) fun _ => .pure _

theorem Command.keeps_destroy (d m : Nat) :
    Keeps (fun w : World => (w.pool p).shape) (Command.run (.destroy d m)) :=
  .bind (Running.keeps_need _ _) fun dir => .bind (Running.keeps_need _ _) fun _ =>
    .bind (Running.keeps_perform (World.keeps_dropDirectory d dir)) fun _ =>
      .bind (Running.keeps_perform (World.keeps_takeBack _ _)) fun _ => .pure _

/-- A pool keeps its shape, whatever is done. -/
theorem Command.Passage.shape (passage : c.Passage w w') (settles : w' = settled c.run w)
    (hp : p < w.pools.size) : (w'.pool p).shape = (w.pool p).shape := by
  cases passage with
  | quiet quiet _ => exact congrArg Pool.shape (quiet.pool p hp)
  | taken _ _ _ _ => rfl
  | given _ _ _ => rfl
  | made quiet _ _ _ _ => exact congrArg Pool.shape (quiet.pool p hp)
  | worked _ chain _ => exact World.shape_closed chain.keeps_shape p
  | gone _ _ _ _ _ _ drops _ =>
    rw [settles]
    rcases drops with rfl | ⟨m, rfl⟩
    · exact keeps_drop _ w
    · exact keeps_destroy _ m w

theorem Moment.shape_after (m : Moment) (sound : m.before.Sound) (hp : p < m.before.pools.size) :
    (m.after.pool p).shape = (m.before.pool p).shape := by
  rw [m.after_eq]
  split
  · exact (m.request.command.passage sound).shape rfl hp
  · rfl

/-! ## Places -/

/-- Where a hash belongs is a matter of the shape. -/
theorem Table.indices_of_shape {t t' : Table} (same : t'.shape = t.shape) (hash : UInt32) :
    t'.bucketIndex hash = t.bucketIndex hash ∧ t'.lockIndex hash = t.lockIndex hash ∧
      t'.listIndex hash = t.listIndex hash := by
  obtain ⟨-, geometry⟩ := Prod.mk.inj same
  obtain ⟨buckets, locks⟩ := Prod.mk.inj geometry
  rw [listIndex, listIndex, bucketIndex, bucketIndex, lockIndex, lockIndex, buckets, locks]
  exact ⟨rfl, rfl, rfl⟩

/-- An entry is as it was, and where it was. -/
structure World.Undisturbed (w w' : World) (e : Nat) : Prop where
  entry : w'.entries.entry e = w.entries.entry e
  lists : ∀ d dir dir', w.directory? d = some dir → w'.directory? d = some dir' →
    dir'.lists.places e = dir.lists.places e
  tables : ∀ p kind, ((w'.pool p).table kind).places e = ((w.pool p).table kind).places e
  buckets : ∀ p kind hash, e ∈ ((w'.pool p).table kind).bucket hash ↔
    e ∈ ((w.pool p).table kind).bucket hash

/-- In the tables an entry of a directory is where its links, its hashes and the geometry say, so if
    these are the same it is where it was. -/
theorem World.InPlace.places_same (before : w.InPlace d e label) (after : w'.InPlace d e label)
    (here : w.directory? d = some dir) (there : w'.directory? d = some dir)
    (same : w'.entries.entry e = w.entries.entry e)
    (shape : (w'.pool dir.pool).shape = (w.pool dir.pool).shape) (p : Nat) (kind : NameKind) :
    ((w'.pool p).table kind).places e = ((w.pool p).table kind).places e := by
  obtain ⟨dir₁, here₁, -, tables, off⟩ := before.here
  obtain ⟨dir₂, there₂, -, tables', off'⟩ := after.here
  obtain rfl := Option.some.inj (here.symm.trans here₁)
  obtain rfl := Option.some.inj (there.symm.trans there₂)
  by_cases h : p = dir.pool
  · subst h
    obtain ⟨n, places, link⟩ := tables kind
    obtain ⟨n', places', link'⟩ := tables' kind
    obtain ⟨-, lock, list⟩ := Table.indices_of_shape (Pool.shape_table shape kind)
      ((w.entries.entry e).hash kind)
    rw [same] at places' link'
    obtain rfl := Option.some.inj (link.symm.trans link')
    rw [places, places', lock, list]
  · rw [off p kind h, off' p kind h]

namespace World.Sound

/-- A bucket holds the entries that belong there and that directories on the pool hold, those with
    the greatest numbers first. -/
theorem bucket (sound : w.Sound) (p : Nat) (kind : NameKind) (hash : UInt32) :
    (((w.pool p).table kind).bucket hash).Pairwise (· > ·) ∧
      ∀ e, e ∈ ((w.pool p).table kind).bucket hash ↔ Family.HeldOn w.directory? p e ∧
        ((w.pool p).table kind).bucketIndex ((w.entries.entry e).hash kind) =
          ((w.pool p).table kind).bucketIndex hash := by
  by_cases hp : p < w.pools.size
  · obtain ⟨order, linked, sorted, members⟩ := sound.hosts.pools p hp
    obtain ⟨table, kind_eq⟩ := linked.table kind
    rw [table.bucket_eq hash]
    refine ⟨sorted.filter _, fun e => ?_⟩
    rw [List.mem_filter, members, decide_eq_true_iff, Table.hashOf, kind_eq]
  · -- no directory is on a pool that does not exist
    have none : ((w.pool p).table kind).bucket hash = [] := by
      rw [pool, Array.getElem?_eq_none (Nat.not_lt.mp hp)]
      cases kind <;> rfl
    rw [none]
    refine ⟨.nil, fun e => ⟨fun h => absurd h List.not_mem_nil, ?_⟩⟩
    rintro ⟨⟨d, dir, here, rfl, -⟩, -⟩
    exact absurd (sound.hosts.pool_lt d dir here) hp

/-- What a directory holds is held on its pool and on no other. -/
theorem heldOn_iff (sound : w.Sound) (here : w.directory? d = some dir) (held : dir.Holds e) :
    Family.HeldOn w.directory? p e ↔ dir.pool = p := by
  constructor
  · rintro ⟨d', dir', there, on_pool, held'⟩
    obtain rfl := sound.hosts.disjoint d d' dir dir' e here there held held'
    obtain rfl := Option.some.inj (here.symm.trans there)
    exact on_pool
  · exact fun on_pool => ⟨d, dir, here, on_pool, held⟩

/-- What is destroyed is held nowhere. -/
theorem not_heldOn (sound : w.Sound) (gone : (w.entries.entry e).Destroyed) :
    ¬ Family.HeldOn w.directory? p e := by
  rintro ⟨d, dir, here, -, held⟩
  have live := sound.live here held
  rw [gone.not_live] at live
  exact Bool.false_ne_true live

/-- An entry of a directory that is as it was is where it was, if the pool has kept its shape. -/
theorem undisturbed (sound : w.Sound) (sound' : w'.Sound) (here : w.directory? d = some dir)
    (there : w'.directory? d = some dir) (held : dir.Holds e)
    (same : w'.entries.entry e = w.entries.entry e)
    (shape : (w'.pool dir.pool).shape = (w.pool dir.pool).shape) : w.Undisturbed w' e := by
  obtain ⟨label, key⟩ := Option.isSome_iff_exists.mp (sound.live here held)
  have before := sound.inPlace here held key
  have after := sound'.inPlace there held (same ▸ key)
  constructor
  case entry => exact same
  case lists =>
    intro d' old new was now
    by_cases h : d' = d
    · rw [h] at was now
      rw [← Option.some.inj (here.symm.trans was), ← Option.some.inj (there.symm.trans now)]
    · rw [before.elsewhere d' old h was, after.elsewhere d' new h now]
  case tables => exact before.places_same after here there same shape
  case buckets =>
    intro p kind hash
    rw [(sound'.bucket p kind hash).2, (sound.bucket p kind hash).2, sound'.heldOn_iff there held,
      sound.heldOn_iff here held, same]
    apply and_congr_right
    intro on_pool
    have indices := fun hash => (Table.indices_of_shape (Pool.shape_table shape kind) hash).1
    rw [← on_pool, indices, indices]

/-- A destroyed entry is nowhere, before and after. -/
theorem undisturbed_of_destroyed (sound : w.Sound) (sound' : w'.Sound)
    (gone : (w.entries.entry e).Destroyed) (same : w'.entries.entry e = w.entries.entry e) :
    w.Undisturbed w' e := by
  have gone' : (w'.entries.entry e).Destroyed := same ▸ gone
  have before := sound.gone gone
  have after := sound'.gone gone'
  constructor
  case entry => exact same
  case lists =>
    intro d dir dir' here there
    rw [before.lists d dir here, after.lists d dir' there]
  case tables =>
    intro p kind
    rw [before.tables p kind, after.tables p kind]
  case buckets =>
    intro p kind hash
    rw [(sound'.bucket p kind hash).2, (sound.bucket p kind hash).2]
    constructor
    · exact fun h => absurd h.1 (sound'.not_heldOn gone')
    · exact fun h => absurd h.1 (sound.not_heldOn gone)

/-- Whatever happens, entries that stay in a bucket stay in their order. -/
theorem order (sound : w.Sound) (sound' : w'.Sound) (p : Nat) (kind : NameKind) (hash : UInt32) :
    (((w'.pool p).table kind).bucket hash).filter (· ∈ ((w.pool p).table kind).bucket hash) =
      (((w.pool p).table kind).bucket hash).filter (· ∈ ((w'.pool p).table kind).bucket hash) := by
  have sorted := (sound.bucket p kind hash).1
  have sorted' := (sound'.bucket p kind hash).1
  refine eq_of_descending (sorted'.filter _) (sorted.filter _) fun e => ?_
  rw [List.mem_filter, List.mem_filter, decide_eq_true_iff, decide_eq_true_iff]
  exact and_comm

end World.Sound

/-- In every session, a request that does not work on directory `d` leaves it as it is, with its
    generation, its update and its lists; every entry that was ever inserted through it is as it was
    and where it was; and the entries that stay in a bucket of a pool stay in their order. -/
theorem Session.untouched (session : Session past w) (r : Request) (d : Nat)
    (other : r.command.worksOn ≠ some d) :
    (∀ dir, w.directory? d = some dir → (r.answer w).2.directory? d = some dir) ∧
    (∀ e ∈ Deed.insertions (deedsOf past d), w.Undisturbed (r.answer w).2 e) ∧
    ∀ p kind hash,
      ((((r.answer w).2.pool p).table kind).bucket hash).filter
          (· ∈ ((w.pool p).table kind).bucket hash) =
        (((w.pool p).table kind).bucket hash).filter
          (· ∈ (((r.answer w).2.pool p).table kind).bucket hash) := by
  have sound := session.sound
  have sound' := (session.request r).sound
  refine ⟨fun dir here => ?_, fun e inserted => ?_, fun p kind hash => ?_⟩
  · exact (Moment.elsewhere ⟨w, r⟩ sound other here).1
  · obtain ⟨known, ⟨dir, here, held⟩ | gone⟩ := session.fate inserted
    · obtain ⟨there, same⟩ := Moment.elsewhere ⟨w, r⟩ sound other here
      have shape := Moment.shape_after ⟨w, r⟩ sound (sound.hosts.pool_lt d dir here)
      exact sound.undisturbed sound' here there held (same e held) shape
    · exact sound.undisturbed_of_destroyed sound' gone (Moment.destroyed ⟨w, r⟩ sound known gone).2
  · exact sound.order sound' p kind hash

/-- The first directory is dropped, which takes the neighbours of that entry out of both tables. -/
theorem Session.untouched_by_drop : ∃ past w, Session past w ∧
    (w.directory? 0).map (fun dir => (dir.id, dir.pool)) = some (1, 0) ∧
    (w.directory? 1).map (fun dir => (dir.id, dir.pool)) = some (1, 0) ∧
    1 ∈ Deed.insertions (deedsOf past 1) ∧
    w.Undisturbed (Request.answer ⟨none, .drop 0⟩ w).2 1 := by
  have session := Session.pair.answers Request.mingled
  have untouched := Session.untouched session ⟨none, .drop 0⟩ 1 (by decide)
  have inserted : 1 ∈ Deed.insertions (deedsOf (World.pair.moments [] Request.mingled) 1) := by
    decide +kernel
  exact ⟨_, _, session, by decide +kernel, by decide +kernel, inserted, untouched.2.1 1 inserted⟩

end NameCache
