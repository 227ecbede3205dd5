/-
  What was done to a directory, as a history.

  A deed is an action together with the state that it found; what it answered and what it left
  follow by running it.  A history lists deeds, the latest first.  Between two deeds the directory
  rests while others act: `Course` allows any change then that leaves the directory and its entries
  alone and keeps it sound.  So whatever holds of every course holds of a directory whoever else
  shares its pool, its manager or its session.
-/
import NameCache.Proofs.Directory.Acting

namespace NameCache

/-- An action and the state it found. -/
structure Deed where
  before : Opened
  action : Action

namespace Deed

/-- What it answered, unless it was refused. -/
def outcome (deed : Deed) : Option Outcome :=
  match deed.action.run .swap deed.before with
  | .ok outcome _ => some outcome
  | .error _ _ => none

/-- The state it left. -/
def after (deed : Deed) : Opened := Step.settled (deed.action.run .swap) deed.before

variable (deed : Deed) {others : Nat → Prop}

/-- What a deed does: nothing if it is refused, and else what the ledger says. -/
theorem cases (sound : deed.before.Sound others) :
    (¬ deed.before.ledger.Accepts deed.action ∧ deed.outcome = none ∧
      deed.after = deed.before) ∨
    (deed.before.ledger.Accepts deed.action ∧ ∃ outcome, deed.outcome = some outcome ∧
      deed.before.ledger.Answers .swap deed.action outcome ∧
      deed.after.ledger = deed.before.ledger.act .swap deed.action outcome ∧
      deed.after.Sound others ∧ deed.before.Leads deed.after) := by
  by_cases accepts : deed.before.ledger.Accepts deed.action
  · obtain ⟨outcome, s', run, sound', leads, answers, ledger⟩ :=
      Opened.accepted_spec sound .swap deed.action accepts
    have left : deed.after = s' := Step.settled_of_ok run
    refine .inr ⟨accepts, outcome, ?_, answers, ?_, ?_, ?_⟩
    · rw [Deed.outcome, run]
    · rw [left]
      exact ledger
    · rw [left]
      exact sound'
    · rw [left]
      exact leads
  · obtain ⟨fault, -, run⟩ := Opened.refused_spec sound .swap deed.action accepts
    refine .inl ⟨accepts, ?_, ?_⟩
    · rw [outcome, run]
    · exact Step.settled_of_error run

/-- Whatever a deed does, it leaves the directory sound and leads where operations may lead. -/
theorem leads (sound : deed.before.Sound others) :
    deed.after.Sound others ∧ deed.before.Leads deed.after := by
  rcases deed.cases sound with ⟨-, -, same⟩ | ⟨-, outcome, -, -, -, sound', leads⟩
  · rw [same]
    exact ⟨sound, .refl _⟩
  · exact ⟨sound', leads⟩

end Deed

/-- Deeds that follow one another without a break. -/
inductive Chain (s : Opened) : List Deed → Opened → Prop
  | nil : Chain s [] s
  | cons {deeds : List Deed} {s₁ : Opened} (action : Action) (chain : Chain s deeds s₁) :
    Chain s (⟨s₁, action⟩ :: deeds) (Deed.after ⟨s₁, action⟩)

theorem Chain.leads {s s' : Opened} {deeds : List Deed} {others : Nat → Prop}
    (chain : Chain s deeds s') (sound : s.Sound others) : s'.Sound others ∧ s.Leads s' := by
  induction chain with
  | nil => exact ⟨sound, .refl s⟩
  | cons action _ ih =>
    obtain ⟨sound₁, leads₁⟩ := ih
    obtain ⟨sound', leads'⟩ := Deed.leads ⟨_, action⟩ sound₁
    exact ⟨sound', leads₁.trans leads'⟩

/-- Each of them found the directory in order. -/
theorem Chain.each_sound {s s' : Opened} {deeds : List Deed} {others : Nat → Prop}
    (chain : Chain s deeds s') (sound : s.Sound others) :
    ∀ deed ∈ deeds, deed.before.Sound others := by
  induction chain with
  | nil => exact fun _ was => absurd was List.not_mem_nil
  | cons action chain ih => exact List.forall_mem_cons.mpr ⟨(chain.leads sound).1, ih⟩

namespace Opened

/-- Others acted: the directory is the same, and of its entries none has changed. -/
structure Rests (s s' : Opened) : Prop where
  dir : s'.dir = s.dir
  grows : s.entries.size ≤ s'.entries.size
  held : ∀ e, s.dir.Holds e → s'.entries.entry e = s.entries.entry e
  gone : ∀ e, e < s.entries.size → (s.entries.entry e).Destroyed →
    s'.entries.entry e = s.entries.entry e

/-- A directory that came into being, with everything that was done to it since. -/
inductive Course : List Deed → Opened → Prop
  | fresh {s : Opened} {others : Nat → Prop} (sound : s.Sound others)
    (generation : s.dir.generation = 0) (idle : s.dir.updating = false)
    (active : s.dir.activeEntries = []) (stale : s.dir.staleEntries = []) : Course [] s
  | act {deeds : List Deed} {s : Opened} (action : Action) (course : Course deeds s) :
    Course (⟨s, action⟩ :: deeds) (Deed.after ⟨s, action⟩)
  | rest {deeds : List Deed} {s s' : Opened} {others : Nat → Prop} (course : Course deeds s)
    (rests : s.Rests s') (sound : s'.Sound others) : Course deeds s'

/-- A directory is sound all along. -/
theorem Course.sound {deeds : List Deed} {s : Opened} (course : Course deeds s) :
    ∃ others, s.Sound others := by
  induction course with
  | fresh sound => exact ⟨_, sound⟩
  | act action _ ih =>
    obtain ⟨others, sound⟩ := ih
    exact ⟨others, (Deed.leads ⟨_, action⟩ sound).1⟩
  | rest _ _ sound => exact ⟨_, sound⟩

/-- A course goes on along a chain. -/
theorem Course.chain {deeds more : List Deed} {s s' : Opened} (course : Course deeds s)
    (chain : Chain s more s') : Course (more ++ deeds) s' := by
  induction chain with
  | nil => exact course
  | cons action _ ih => exact .act action ih

end Opened

end NameCache
