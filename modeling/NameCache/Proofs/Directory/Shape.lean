/-
  The shape of a pool: the kinds, buckets and locks of its two tables.

  Linking and unlinking write the stripes of a table and nothing else of it, so they keep the shape.
  The bucket of a name is a matter of the shape.
-/
import NameCache.Directory.Action
import NameCache.Proofs.Step
import NameCache.Proofs.Table

namespace NameCache

open Step

/-- The shapes of both tables. -/
def Pool.shape (p : Pool) : (NameKind × Nat × Nat) × NameKind × Nat × Nat :=
  (p.names.shape, p.encnames.shape)

theorem Pool.shape_table {p p' : Pool} (same : p'.shape = p.shape) (kind : NameKind) :
    (p'.table kind).shape = (p.table kind).shape := by
  obtain ⟨names, encnames⟩ := Prod.mk.inj same
  cases kind with
  | plain => exact names
  | encrypted => exact encnames

/-! ## Tables and pools -/

theorem Table.keeps_onStripe {α : Type} (hash : UInt32) (op : Step (SlotLists Nat) α) :
    Keeps Table.shape (Table.onStripe hash op) := by
  intro t
  cases found : t.stripes[t.lockIndex hash]? with
  | none =>
    have stops :
        onStripe hash op t = .error (.outOfBounds t.stripes.size (t.lockIndex hash)) t := by
      rw [onStripe, found]
    rw [settled_of_error stops]
  | some stripe =>
    have written : Keeps Table.shape (Step.focus (fun _ => stripe) (fun t stripe =>
        { t with stripes := t.stripes.setIfInBounds (t.lockIndex hash) stripe }) op) :=
      .aside fun _ _ => rfl
    have same := written t
    rw [settled] at same
    rw [settled, onStripe, found]
    exact same

theorem Table.keeps_insert (e : Nat) :
    Keeps (fun s : Indexed Table => s.index.shape) (Table.insert e) :=
  .bind .get fun _ =>
    .bind (.focus (.bind .get fun _ => keeps_onStripe _ _) fun _ _ same => same) fun _ =>
      .modify fun _ => rfl

theorem Table.keeps_remove (e : Nat) :
    Keeps (fun s : Indexed Table => s.index.shape) (Table.remove e) := by
  refine .bind .get fun s => ?_
  dsimp only
  split
  · exact .throw _
  · refine .bind (.focus (keeps_onStripe _ _) fun _ _ same => same) fun taken => ?_
    split
    · exact .modify fun _ => rfl
    · exact .throw _

theorem Pool.keeps_link (e : Nat) :
    Keeps (fun s : Indexed Pool => s.index.shape) (Pool.link e) := by
  refine .bind (.focus (Table.keeps_insert e) fun s t same => ?_) fun _ =>
    .focus (Table.keeps_insert e) fun s t same => ?_
  · exact congrArg (·, s.index.encnames.shape) same
  · exact congrArg (s.index.names.shape, ·) same

theorem Pool.keeps_unlink (e : Nat) :
    Keeps (fun s : Indexed Pool => s.index.shape) (Pool.unlink e) := by
  refine .bind (.focus (Table.keeps_remove e) fun s t same => ?_) fun _ =>
    .focus (Table.keeps_remove e) fun s t same => ?_
  · exact congrArg (·, s.index.encnames.shape) same
  · exact congrArg (s.index.names.shape, ·) same

namespace Opened

/-- Which pool the directory is on, and the shape of that pool, are the same afterwards. -/
abbrev KeepsShape {α : Type} (op : Step Opened α) : Prop :=
  Step.Keeps (fun s : Opened => (s.dir.pool, s.pool.shape)) op

end Opened

end NameCache
