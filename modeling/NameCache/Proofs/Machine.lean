/-
  Operations that follow a machine.

  A machine is a system told without links and without faults: which edits it admits, what an edit
  gives back, and what it makes of the system.  Operations follow a machine if each of them, where
  the state models the system and the edit is admitted, gives back what the machine says and leaves
  a model of what the machine becomes.  Then any number of them do, and none stops on a fault.
-/
import NameCache.Proofs.Step

namespace NameCache

/-- A system `σ` under edits `ε` that give back a `β`. -/
structure Machine (σ ε β : Type) where
  /-- Whether an edit may be made now. -/
  Admits : σ → ε → Prop
  /-- What an edit gives back. -/
  outcome : σ → ε → β
  /-- What an edit makes of the system. -/
  next : σ → ε → σ

namespace Machine

variable {σ τ ε β : Type} {m : Machine σ ε β} {q : σ} {s : τ} {edits earlier later : List ε}

/-- The system after edits. -/
def after (m : Machine σ ε β) (q : σ) (edits : List ε) : σ := edits.foldl m.next q

/-- What edits give back, in order. -/
def outcomes (m : Machine σ ε β) (q : σ) : List ε → List β
  | [] => []
  | edit :: rest => m.outcome q edit :: m.outcomes (m.next q edit) rest

/-- Each of the edits is admitted when its turn comes. -/
def AdmitsAll (m : Machine σ ε β) (q : σ) : List ε → Prop
  | [] => True
  | edit :: rest => m.Admits q edit ∧ m.AdmitsAll (m.next q edit) rest

instance decidableAdmitsAll [∀ q edit, Decidable (m.Admits q edit)] :
    (edits : List ε) → (q : σ) → Decidable (m.AdmitsAll q edits)
  | [], _ => inferInstanceAs (Decidable True)
  | edit :: rest, q =>
    have : Decidable (m.AdmitsAll (m.next q edit) rest) := decidableAdmitsAll rest (m.next q edit)
    inferInstanceAs (Decidable (m.Admits q edit ∧ m.AdmitsAll (m.next q edit) rest))

theorem after_append : m.after q (earlier ++ later) = m.after (m.after q earlier) later :=
  List.foldl_append

theorem admitsAll_append :
    m.AdmitsAll q (earlier ++ later) ↔
      m.AdmitsAll q earlier ∧ m.AdmitsAll (m.after q earlier) later := by
  induction earlier generalizing q with
  | nil => exact (true_and _).to_iff.symm
  | cons edit rest ih =>
    show m.Admits q edit ∧ m.AdmitsAll (m.next q edit) (rest ++ later) ↔ _
    rw [ih, ← and_assoc]
    rfl

/-- The operations do what the machine does, edit by edit. -/
def Follows (run : ε → Step τ β) (m : Machine σ ε β) (Models : τ → σ → Prop) : Prop :=
  ∀ s q edit, Models s q → m.Admits q edit →
    ∃ t, run edit s = .ok (m.outcome q edit) t ∧ Models t (m.next q edit)

/-- What holds of one edit holds of any number of them. -/
theorem Follows.runs {run : ε → Step τ β} {Models : τ → σ → Prop} (follows : Follows run m Models)
    (models : Models s q) (fit : m.AdmitsAll q edits) :
    ∃ t, edits.mapM run s = .ok (m.outcomes q edits) t ∧ Models t (m.after q edits) := by
  induction edits generalizing s q with
  | nil => exact ⟨s, rfl, models⟩
  | cons edit rest ih =>
    obtain ⟨s₁, first, models₁⟩ := follows s q edit models fit.1
    obtain ⟨t, others, models'⟩ := ih models₁ fit.2
    refine ⟨t, ?_, models'⟩
    rw [List.mapM_cons, Step.bind_of_ok first, Step.bind_of_ok others]
    rfl

end Machine

end NameCache
