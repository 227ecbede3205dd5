/-
  Commands that no directory notices.

  A command under way settles in a world whether it is refused or not.  `Hushed` says of a piece of
  a command that from any wired world it settles in one that differs quietly.  Pieces in sequence
  are hushed if each is, so a command is from its text.
-/
import NameCache.Proofs.World.Quiet

namespace NameCache

open Step

variable {ε α β : Type} {w w' : World}

/-- No directory notices. -/
def Hushed (x : EStateM ε World α) : Prop := ∀ w : World, w.Wired → w.Quiet (settled x w)

namespace Hushed

protected theorem pure (a : α) : Hushed (pure a : EStateM ε World α) := fun w _ => .refl w

protected theorem throw (fault : ε) : Hushed (throw fault : EStateM ε World α) := fun w _ => .refl w

protected theorem get : Hushed (get : EStateM ε World World) := fun w _ => .refl w

protected theorem modify {f : World → World} (h : ∀ w : World, w.Quiet (f w)) :
    Hushed (modify f : EStateM ε World PUnit) := fun w _ => h w

protected theorem bind {x : EStateM ε World α} {f : α → EStateM ε World β} (hx : Hushed x)
    (hf : ∀ a, Hushed (f a)) : Hushed (x >>= f) := by
  intro w wired
  have first := hx w wired
  cases run : x w with
  | ok a w' =>
    rw [settled_of_ok run] at first
    rw [settled_bind_of_ok run]
    exact first.trans (hf a w' (first.wired wired))
  | error fault w' =>
    rw [settled_of_error run] at first
    rw [settled_bind_of_error run]
    exact first

theorem ite {c : Prop} [Decidable c] {x y : EStateM ε World α} (hx : Hushed x) (hy : Hushed y) :
    Hushed (if c then x else y) := by
  split
  · exact hx
  · exact hy

theorem perform {op : Step World α} (h : Hushed op) : Hushed (Running.perform op) := by
  intro w wired
  have quiet := h w wired
  cases run : op w with
  | ok a w' =>
    rw [settled_of_ok run] at quiet
    have performed : Running.perform op w = .ok a w' := by rw [Running.perform, run]
    rw [settled_of_ok performed]
    exact quiet
  | error fault w' =>
    rw [settled_of_error run] at quiet
    have performed : Running.perform op w = .error (.fault fault) w' := by
      rw [Running.perform, run]
    rw [settled_of_error performed]
    exact quiet

theorem need (what : Missing) (find : World → Option α) : Hushed (Running.need what find) := by
  intro w _
  have same : settled (Running.need what find) w = w := by
    rw [Running.need, settled_bind_of_ok (show (get : Running World) w = .ok w w from rfl)]
    cases find w <;> rfl
  rw [same]
  exact .refl w

theorem require (x : Except Fault α) : Hushed (Step.require x : Step World α) := by
  cases x with
  | ok a => exact .pure a
  | error fault => exact .throw fault

theorem emit (event : Event) : Hushed (World.emit event) :=
  Hushed.modify fun w => .recorded w rfl

end Hushed

namespace World

variable {m p h d : Nat} {manager : Manager} {provision : Provision}

/-! ## Pools -/

theorem hushed_addPool (buckets locks : Nat) : Hushed (addPool buckets locks) := by
  intro w _
  cases made : Pool.create buckets locks with
  | error fault =>
    rw [addPool, made]
    exact .refl w
  | ok pool =>
    rw [addPool, made]
    exact .add_pool made

theorem hushed_providePool (provision : Provision) : Hushed (providePool provision) := by
  cases provision with
  | shared p => exact .pure p
  | separate buckets locks => exact .bind (.emit _) fun _ => hushed_addPool buckets locks

/-- A pool that a manager provides exists, and no manager has changed. -/
theorem providePool_spec (wired : w.Wired) (hm : w.manager? m = some manager)
    (run : providePool manager.provision w = .ok p w') :
    p < w'.pools.size ∧ w'.managers = w.managers := by
  cases provision : manager.provision with
  | shared q =>
    rw [provision] at run
    obtain ⟨rfl, rfl⟩ := EStateM.Result.ok.inj run
    exact ⟨wired.shared m manager q hm provision, rfl⟩
  | separate buckets locks =>
    rw [provision, providePool] at run
    cases made : Pool.create buckets locks with
    | error fault =>
      rw [addPool, made] at run
      exact absurd run (by rintro ⟨⟩)
    | ok pool =>
      rw [addPool, made] at run
      obtain ⟨rfl, rfl⟩ := EStateM.Result.ok.inj run
      refine ⟨?_, rfl⟩
      show w.pools.size < (w.pools.push pool).size
      rw [Array.size_push]
      exact Nat.lt_succ_self _

theorem hushed_takeBack (provision : Provision) (p : Nat) : Hushed (takeBack provision p) := by
  cases provision with
  | shared q => exact .ite (.throw _) (.pure _)
  | separate buckets locks =>
    refine .bind .get fun w => .ite ?_ (.emit _)
    exact .ite (.bind (.emit _) fun _ => .emit _) (.emit _)

theorem hushed_dropHandle (h : Nat) : Hushed (dropHandle h) := .modify fun w => .drop w h

/-! ## Managers -/

/-- A manager that shares a pool has made it. -/
theorem makeProvision_spec (shared : Bool) (buckets locks : Nat) (w : World) :
    (∃ provision w', makeProvision shared buckets locks w = .ok provision w' ∧ w.Quiet w' ∧
      ∀ p, provision = .shared p → p < w'.pools.size) ∨
    ∃ fault, makeProvision shared buckets locks w = .error fault w := by
  cases shared with
  | false => exact .inl ⟨.separate buckets locks, w, rfl, .refl w, by rintro p ⟨⟩⟩
  | true =>
    cases made : Pool.create buckets locks with
    | error fault =>
      refine .inr ⟨fault, ?_⟩
      rw [makeProvision, addPool, made]
      rfl
    | ok pool =>
      refine .inl ⟨.shared w.pools.size, { w with pools := w.pools.push pool }, ?_,
        .add_pool made, ?_⟩
      · rw [makeProvision, addPool, made]
        rfl
      · rintro p ⟨⟩
        show w.pools.size < (w.pools.push pool).size
        rw [Array.size_push]
        exact Nat.lt_succ_self _

theorem hushed_addManagerOf (settings : Settings) (buckets locks : Nat) :
    Hushed (addManagerOf settings buckets locks) := by
  intro w _
  rcases makeProvision_spec settings.shared buckets locks w with
    ⟨provision, w₁, run, quiet, exist⟩ | ⟨fault, run⟩
  · rw [addManagerOf, settled_bind_of_ok run]
    exact quiet.trans (.add_manager exist)
  · rw [addManagerOf, settled_bind_of_error run]
    exact .refl w

theorem hushed_addManager (threads : Nat) (settings : Settings) :
    Hushed (addManager threads settings) :=
  .bind (.require _) fun _ => .bind (.emit _) fun _ => hushed_addManagerOf _ _ _

theorem hushed_setEnabled (m : Nat) (enabled : Bool) : Hushed (setEnabled m enabled) := by
  refine .bind (.modify fun w => ?_) fun _ => .emit _
  refine .managers rfl Array.size_modify fun m' manager' found => ?_
  rw [Array.getElem?_modify] at found
  by_cases heq : m = m'
  · rw [if_pos heq] at found
    show ∃ manager, (w.managers[m']?).join = some manager ∧ _
    cases there : w.managers[m']? with
    | none => rw [there] at found; exact absurd found (by rintro ⟨⟩)
    | some x =>
      rw [there] at found
      obtain ⟨manager, rfl, rfl⟩ := Option.map_eq_some_iff.mp found
      exact ⟨manager, rfl, rfl⟩
  · rw [if_neg heq] at found
    exact ⟨manager', found, rfl⟩

theorem hushed_shutdown (m : Nat) (manager : Manager) : Hushed (shutdown m manager) := by
  have gone : ∀ w : World, w.Quiet { w with managers := w.managers.setIfInBounds m none } := by
    intro w
    refine .managers rfl Array.size_setIfInBounds fun m' manager' found => ?_
    rw [Array.getElem?_setIfInBounds] at found
    by_cases heq : m = m'
    · rw [if_pos heq] at found
      split at found <;> exact absurd found (by rintro ⟨⟩)
    · rw [if_neg heq] at found
      exact ⟨manager', found, rfl⟩
  refine .bind .get fun w => ?_
  have rest : Hushed (do
      emit (.shutdown manager.buckets manager.settings.shared)
      modify fun w => { w with managers := w.managers.setIfInBounds m none } : Step World Unit) :=
    .bind (.emit _) fun _ => .modify gone
  exact .ite (.bind (.emit _) fun _ => rest) rest

end World

end NameCache
