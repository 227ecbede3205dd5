/-
  Loops that go on while something is found.

  `Repeats next body s path t` says that the loop that looks for an item with `next` and works on it
  with `body`, again and again until `next` finds none, leads from `s` to `t`, and `path` is the
  states after its rounds.  There is no bound in it: a loop that goes on for ever repeats along no
  path, and one that ends does so along one path only (`Repeats.unique`).

  `bounded` is the same loop with a bound on its rounds, as a function.  Where the loop ends within
  the bound, the function leads where the loop does and gives its number of rounds
  (`Repeats.bounded`).

  `Repeats.of_countdown` is how a loop is shown to end: a number that each round lowers by one, and
  with which nothing is found when it is zero, is the number of rounds.
-/
import Mathlib.Data.List.Chain
import NameCache.Proofs.Step

namespace NameCache

namespace Step

variable {σ ι : Type} {next : Step σ (Option ι)} {body : ι → Step σ Unit}
  {s s' t t' : σ} {path path' : List σ}

/-- The loop leads from a state to another one, with these states after its rounds. -/
inductive Repeats (next : Step σ (Option ι)) (body : ι → Step σ Unit) : σ → List σ → σ → Prop
  /-- Nothing is found, and the loop ends. -/
  | done {s t : σ} (found : next s = .ok none t) : Repeats next body s [] t
  /-- An item is found and worked on, and the loop goes on. -/
  | more {s s₁ s' t : σ} {i : ι} {path : List σ} (found : next s = .ok (some i) s₁)
    (worked : body i s₁ = .ok () s') (rest : Repeats next body s' path t) :
    Repeats next body s (s' :: path) t

namespace Repeats

/-- A loop that ends has one way to do so. -/
theorem unique (one : Repeats next body s path t) (other : Repeats next body s path' t') :
    path' = path ∧ t' = t := by
  induction one generalizing path' with
  | done found =>
    cases other with
    | done found' =>
      rw [found] at found'
      obtain ⟨-, rfl⟩ := EStateM.Result.ok.inj found'
      exact ⟨rfl, rfl⟩
    | more found' _ _ =>
      rw [found] at found'
      exact absurd found' (by simp)
  | more found worked _ ih =>
    cases other with
    | done found' =>
      rw [found] at found'
      exact absurd found' (by simp)
    | more found' worked' rest' =>
      rw [found] at found'
      obtain ⟨item, rfl⟩ := EStateM.Result.ok.inj found'
      obtain rfl := Option.some.inj item
      rw [worked] at worked'
      obtain ⟨-, rfl⟩ := EStateM.Result.ok.inj worked'
      obtain ⟨rfl, rfl⟩ := ih rest'
      exact ⟨rfl, rfl⟩

/-- A loop ends after as many rounds as there were items, if each round leaves one item less.
    `Inv` holds before and after every round, and `Moves` between the two. -/
theorem of_countdown {Inv : σ → Prop} {Moves : σ → σ → Prop} {items : σ → Nat}
    (idle : ∀ s, Inv s → items s = 0 → next s = .ok none s)
    (round : ∀ s n, Inv s → items s = n + 1 → ∃ i s₁ s', next s = .ok (some i) s₁ ∧
      body i s₁ = .ok () s' ∧ Inv s' ∧ items s' = n ∧ Moves s s') (inv : Inv s) :
    ∃ path t, Repeats next body s path t ∧ path.length = items s ∧
      List.IsChain Moves (s :: path) ∧ Inv t ∧ items t = 0 := by
  generalize number : items s = n
  induction n generalizing s with
  | zero => exact ⟨[], s, .done (idle s inv number), rfl, .singleton s, inv, number⟩
  | succ n ih =>
    obtain ⟨i, s₁, s', found, worked, inv', number', moves⟩ := round s n inv number
    obtain ⟨path, t, rest, length, chain, inv_end, none_left⟩ := ih inv' number'
    refine ⟨s' :: path, t, .more found worked rest, ?_, .cons_cons moves chain, inv_end, none_left⟩
    rw [List.length_cons, length]

end Repeats

/-! ## With a bound -/

/-- The loop with a bound on its rounds; their number.  With an item left when the bound is reached
    it stops. -/
def bounded (next : Step σ (Option ι)) (body : ι → Step σ Unit) : Nat → Step σ Nat
  | 0 => do
    if (← next).isSome then throw .endless
    return 0
  | fuel + 1 => do
    match ← next with
    | none => return 0
    | some i =>
      body i
      return (← bounded next body fuel) + 1

/-- Nothing is found: the loop with a bound ends at once. -/
theorem bounded_of_done (found : next s = .ok none t) (fuel : Nat) :
    bounded next body fuel s = .ok 0 t := by
  cases fuel with
  | zero => exact bind_of_ok found
  | succ fuel => exact bind_of_ok found

/-- An item is found: its round is the first one, and the bound allows one round less. -/
theorem bounded_of_more {s₁ : σ} {i : ι} (found : next s = .ok (some i) s₁)
    (worked : body i s₁ = .ok () s') (fuel : Nat) :
    bounded next body (fuel + 1) s = ((· + 1) <$> bounded next body fuel) s' :=
  (bind_of_ok found).trans (bind_of_ok worked)

/-- A loop that ends within the bound is not kept from it. -/
theorem Repeats.bounded (repeats : Repeats next body s path t) :
    ∀ fuel, path.length ≤ fuel → bounded next body fuel s = .ok path.length t := by
  induction repeats with
  | done found => exact fun fuel _ => bounded_of_done found fuel
  | more found worked _ ih =>
    intro fuel enough
    cases fuel with
    | zero => exact absurd enough (by simp)
    | succ fuel =>
      rw [bounded_of_more found worked]
      exact map_of_ok (ih fuel (Nat.le_of_succ_le_succ enough))

end Step

end NameCache
