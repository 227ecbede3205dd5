/-
  Running steps one after another.

  An operation that may stop is a function from a state to a result, so a sequence of operations is
  followed by rewriting: `bind_of_ok` passes the first result on, `bind_of_error` ends the sequence
  there.  `focus_of_ok` does the same for an operation on a part of the state.
-/
import NameCache.Step

namespace NameCache

namespace Step

variable {ε σ τ α β : Type}

/-- A step that gives a result hands it on, with the state it left. -/
theorem bind_of_ok {x : EStateM ε σ α} {f : α → EStateM ε σ β} {s t : σ} {a : α}
    (h : x s = .ok a t) : (x >>= f) s = f a t := by
  show EStateM.bind x f s = f a t
  rw [EStateM.bind, h]

/-- A step that stops ends the sequence. -/
theorem bind_of_error {x : EStateM ε σ α} {f : α → EStateM ε σ β} {s t : σ} {fault : ε}
    (h : x s = .error fault t) : (x >>= f) s = .error fault t := by
  show EStateM.bind x f s = .error fault t
  rw [EStateM.bind, h]

/-- What is read from a result afterwards. -/
theorem map_of_ok {x : EStateM ε σ α} {f : α → β} {s t : σ} {a : α} (h : x s = .ok a t) :
    (f <$> x) s = .ok (f a) t := bind_of_ok h

theorem map_of_error {x : EStateM ε σ α} {f : α → β} {s t : σ} {fault : ε}
    (h : x s = .error fault t) : (f <$> x) s = .error fault t := bind_of_error h

@[simp] theorem get_bind (f : σ → Step σ β) (s : σ) : (get >>= f) s = f s s := rfl

@[simp] theorem modify_bind (g : σ → σ) (f : PUnit → Step σ β) (s : σ) :
    (modify g >>= f) s = f () (g s) := rfl

@[simp] theorem pure_bind_run (a : α) (f : α → Step σ β) (s : σ) : (pure a >>= f) s = f a s := rfl

theorem focus_of_ok {part : σ → τ} {replace : σ → τ → σ} {op : Step τ α} {s : σ} {t : τ} {a : α}
    (h : op (part s) = .ok a t) : focus part replace op s = .ok a (replace s t) := by
  rw [focus, h]

/-- The end of an operation: what it gives or the fault it stops on, and the state. -/
def result : Except ε α → σ → EStateM.Result ε σ α
  | .ok a, s => .ok a s
  | .error fault, s => .error fault s

/-! ## Where an operation ends -/

section Settled

/-- The state in which an operation ends, whether it stops or not. -/
def settled (x : EStateM ε σ α) (s : σ) : σ :=
  match x s with
  | .ok _ s' => s'
  | .error _ s' => s'

variable {x : EStateM ε σ α} {f : α → EStateM ε σ β} {s s' : σ} {a : α} {fault : ε}

theorem settled_of_ok (h : x s = .ok a s') : settled x s = s' := by
  rw [settled, h]

theorem settled_of_error (h : x s = .error fault s') : settled x s = s' := by
  rw [settled, h]

theorem settled_bind_of_ok (h : x s = .ok a s') : settled (x >>= f) s = settled (f a) s' := by
  rw [settled, bind_of_ok h, settled]

theorem settled_bind_of_error (h : x s = .error fault s') : settled (x >>= f) s = s' := by
  rw [settled, bind_of_error h]

/-- An answer made up at the end does not change where an operation ends. -/
theorem settled_bind_pure (x : EStateM ε σ α) (g : α → β) (s : σ) :
    settled (x >>= fun a => pure (g a)) s = settled x s := by
  cases run : x s with
  | ok a s' =>
    rw [settled_bind_of_ok run, settled_of_ok run]
    rfl
  | error fault s' => rw [settled_bind_of_error run, settled_of_error run]

end Settled

/-! ## What an operation leaves alone -/

/-- Something that can be told of a state is the same afterwards, whether the operation stops or
    not. -/
def Keeps {γ : Type} (f : σ → γ) (op : EStateM ε σ α) : Prop := ∀ s, f (settled op s) = f s

namespace Keeps

variable {γ δ : Type} {f : σ → γ} {g : τ → δ}

protected theorem pure (a : α) : Keeps f (pure a : EStateM ε σ α) := fun _ => rfl

protected theorem throw (fault : ε) : Keeps f (throw fault : EStateM ε σ α) := fun _ => rfl

protected theorem get : Keeps f (get : EStateM ε σ σ) := fun _ => rfl

protected theorem modify {change : σ → σ} (same : ∀ s, f (change s) = f s) :
    Keeps f (modify change : EStateM ε σ PUnit) := same

protected theorem bind {x : EStateM ε σ α} {next : α → EStateM ε σ β} (first : Keeps f x)
    (rest : ∀ a, Keeps f (next a)) : Keeps f (x >>= next) := by
  intro s
  have kept := first s
  cases run : x s with
  | ok a s' =>
    rw [settled_of_ok run] at kept
    rw [settled_bind_of_ok run, rest a s', kept]
  | error fault s' =>
    rw [settled_of_error run] at kept
    rw [settled_bind_of_error run, kept]

/-- An operation on a part keeps what depends on something that it keeps of the part. -/
theorem focus {part : σ → τ} {replace : σ → τ → σ} {op : Step τ α} (kept : Keeps g op)
    (same : ∀ s t, g t = g (part s) → f (replace s t) = f s) :
    Keeps f (Step.focus part replace op) := by
  intro s
  have inner := kept (part s)
  rw [settled] at inner
  rw [settled, Step.focus]
  cases run : op (part s) with
  | ok a t =>
    rw [run] at inner
    exact same s t inner
  | error fault t =>
    rw [run] at inner
    exact same s t inner

/-- An operation on a part keeps what does not depend on the part. -/
theorem aside {part : σ → τ} {replace : σ → τ → σ} {op : Step τ α}
    (same : ∀ s t, f (replace s t) = f s) : Keeps f (Step.focus part replace op) :=
  focus (g := fun _ => ()) (fun _ => rfl) fun s t _ => same s t

end Keeps

end Step

end NameCache
