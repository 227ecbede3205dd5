/-
  How many entries the directories have together.

  A census counts the entries of the directories that a test picks: those of one manager, or those
  on one pool.  Directories share no entry, so it is the length of a list without repetitions
  (`Hosts.holdings_nodup`), and a table that holds the same entries is as long
  (`Hosts.length_table`).
-/
import NameCache.Proofs.World.Hosting

namespace NameCache

namespace World

variable {w w' : World} {q : Directory → Bool} {d e m p : Nat} {dir : Directory}
  {x : Option Directory} {kind : NameKind}

/-- How many entries a place counts for: none if its directory is gone or not picked. -/
def share (q : Directory → Bool) (x : Option Directory) : Nat :=
  (x.filter q).elim 0 Directory.length

/-- How many entries the directories that `q` picks have together. -/
def census (w : World) (q : Directory → Bool) : Nat :=
  sumTo (fun d => share q (w.directory? d)) w.directories.size

/-- These entries. -/
def holdings (w : World) (q : Directory → Bool) : List Nat :=
  (List.range w.directories.size).flatMap fun d =>
    ((w.directory? d).filter q).elim [] fun dir => dir.activeEntries ++ dir.staleEntries

theorem share_some (q : Directory → Bool) (dir : Directory) :
    share q (some dir) = if q dir then dir.length else 0 := by
  rw [share, Option.filter_some]
  split <;> rfl

theorem census_congr (directories : w'.directories = w.directories) : w'.census q = w.census q := by
  have same : w'.directory? = w.directory? := by
    funext d
    rw [directory?, directory?, directories]
  rw [census, census, directories, same]

/-- A census changes by what changes in one place. -/
theorem census_set (hd : d < w.directories.size) (size : w'.directories.size = w.directories.size)
    (there : w'.directory? = Family.set w.directory? d x) :
    w'.census q + share q (w.directory? d) = w.census q + share q x := by
  rw [census, census, size]
  have moved := sumTo_update (f := fun d => share q (w.directory? d))
    (g := fun d => share q (w'.directory? d)) hd fun i ne => by
      rw [there, Family.set_ne ne]
  refine moved.trans ?_
  rw [there, Family.set_self]

/-- A new directory counts for what it has. -/
theorem census_push (size : w'.directories.size = w.directories.size + 1)
    (there : w'.directory? = Family.set w.directory? w.directories.size x) :
    w'.census q = w.census q + share q x := by
  have old : sumTo (fun d => share q (w'.directory? d)) w.directories.size = w.census q := by
    refine sumTo_congr fun i hi => ?_
    rw [there, Family.set_ne (Nat.ne_of_lt hi)]
  rw [census, size, sumTo, old, there, Family.set_self]

theorem mem_holdings : e ∈ w.holdings q ↔
    ∃ d dir, w.directory? d = some dir ∧ q dir = true ∧ dir.Holds e := by
  constructor
  · intro he
    obtain ⟨d, -, he⟩ := List.mem_flatMap.mp he
    cases here : w.directory? d with
    | none =>
      rw [here] at he
      exact absurd he List.not_mem_nil
    | some dir =>
      rw [here] at he
      cases picked : q dir with
      | true =>
        rw [Option.filter_some_pos picked] at he
        exact ⟨d, dir, here, picked, List.mem_append.mp he⟩
      | false =>
        rw [Option.filter_some_neg picked] at he
        exact absurd he List.not_mem_nil
  · rintro ⟨d, dir, here, picked, held⟩
    have known : d < w.directories.size := by
      rw [directory?, Option.join_eq_some_iff] at here
      exact (Array.getElem?_eq_some_iff.mp here).1
    refine List.mem_flatMap.mpr ⟨d, List.mem_range.mpr known, ?_⟩
    rw [here, Option.filter_some_pos picked]
    exact List.mem_append.mpr held

namespace Hosts

variable (hosts : w.Hosts w.directory?)
include hosts

/-- A census counts the entries held. -/
theorem length_holdings (q : Directory → Bool) : (w.holdings q).length = w.census q := by
  rw [holdings, census, length_flatMap_range]
  refine sumTo_congr fun d _ => ?_
  cases here : w.directory? d with
  | none => rfl
  | some dir =>
    cases picked : q dir with
    | true =>
      rw [share_some, if_pos picked, Option.filter_some_pos picked, Option.elim_some,
        List.length_append, (hosts.standing d dir here).length_eq]
    | false =>
      rw [share_some, picked, Option.filter_some_neg picked]
      rfl

/-- No entry is counted twice. -/
theorem holdings_nodup (q : Directory → Bool) : (w.holdings q).Nodup := by
  have held : ∀ d e, e ∈ ((w.directory? d).filter q).elim []
      (fun dir => dir.activeEntries ++ dir.staleEntries) →
        ∃ dir, w.directory? d = some dir ∧ dir.Holds e := by
    intro d e he
    cases there : (w.directory? d).filter q with
    | none =>
      rw [there] at he
      exact absurd he List.not_mem_nil
    | some dir =>
      rw [there] at he
      exact ⟨dir, (Option.filter_eq_some_iff.mp there).1, List.mem_append.mp he⟩
  rw [List.Nodup, holdings, List.pairwise_flatMap]
  refine ⟨fun d _ => ?_, List.nodup_range.imp fun {d d'} ne e he e' he' same => ?_⟩
  · cases there : (w.directory? d).filter q with
    | none => exact List.nodup_nil
    | some dir =>
      have ledger := hosts.ledger d dir (Option.filter_eq_some_iff.mp there).1
      refine List.nodup_append.mpr ⟨ledger.active_nodup, ledger.stale_nodup, ?_⟩
      rintro e active e' stale rfl
      exact ledger.disjoint e active stale
  · obtain ⟨dir, here, h⟩ := held d e he
    obtain ⟨dir', here', h'⟩ := held d' e (same ▸ he')
    exact ne (hosts.disjoint d d' dir dir' e here here' h h')

/-- Each table of a pool is as long as the directories on it have entries. -/
theorem length_table (p : Nat) (kind : NameKind) :
    ((w.pool p).table kind).length = w.census (·.pool == p) := by
  by_cases hp : p < w.pools.size
  · obtain ⟨order, linked, -, members⟩ := hosts.pools p hp
    have table : ((w.pool p).table kind).Sound w.entries order := by
      cases kind with
      | plain => exact linked.names
      | encrypted => exact linked.encnames
    rw [table.length_eq, ← hosts.length_holdings]
    refine ((List.perm_ext_iff_of_nodup table.nodup (hosts.holdings_nodup _)).mpr
      fun e => ?_).length_eq
    rw [members, mem_holdings]
    simp only [Family.HeldOn, beq_iff_eq]
  · -- no directory is on a pool that does not exist
    have empty : ((w.pool p).table kind).length = 0 := by
      rw [pool, Array.getElem?_eq_none (Nat.not_lt.mp hp)]
      cases kind <;> rfl
    have none : w.holdings (·.pool == p) = [] := by
      refine List.eq_nil_iff_forall_not_mem.mpr fun e he => ?_
      obtain ⟨d, dir, here, picked, -⟩ := mem_holdings.mp he
      exact hp (beq_iff_eq.mp picked ▸ hosts.pool_lt d dir here)
    rw [empty, ← hosts.length_holdings, none]
    rfl

end Hosts

end World

end NameCache
