/-
  Exchanging the lists shows what a walk would show.

  Whatever a directory is asked, it answers and becomes what it would if it demoted its entries by a
  walk in every case (`Session.walking`).  Two things give the exchange away.  A stale entry goes on
  carrying the generation that it was confirmed in, also after it was destroyed.  And that
  generation shows in the text of the fault when such a destroyed entry is updated (`Session.walking_fails`).
-/
import NameCache.Proofs.Directory.Walking
import NameCache.Proofs.Session.Rescans

namespace NameCache

variable {w : World} {past : List Moment} {dir : Directory} {d : Nat} {action : Action}

/-! ## Requests one by one -/

theorem World.answers_append (w : World) (first : List Request) (r : Request) :
    (w.answers (first ++ [r])).2 = (r.answer (w.answers first).2).2 := by
  induction first generalizing w with
  | nil => rfl
  | cons earlier rest ih => exact ih _

/-- An action on a directory that exists is done to it, whether it is accepted or not. -/
theorem World.Sound.after_action (sound : w.Sound) (here : w.directory? d = some dir)
    (action : Action) : (Request.answer ⟨some d, .within d action⟩ w).2 =
      w.put d (Deed.after ⟨w.opened dir, action⟩) := by
  have heard : (⟨w, ⟨some d, .within d action⟩⟩ : Moment).heard = true := by
    rw [Moment.heard, Option.all_some, here]
    rfl
  have after := Moment.after_eq ⟨w, ⟨some d, .within d action⟩⟩
  rw [if_pos heard] at after
  exact after.trans (settled_within sound here action)

/-- Actions that are carried out as requests, the latest first, leave what they leave. -/
theorem World.Sound.answers_left (sound : w.Sound) (here : w.directory? d = some dir)
    (actions : List Action) :
    ∃ now, (w.answers (Request.each d actions.reverse)).2.Sound ∧
      (w.answers (Request.each d actions.reverse)).2.directory? d = some now ∧
      (w.answers (Request.each d actions.reverse)).2.opened now =
        (w.opened dir).leftBy .swap actions := by
  induction actions with
  | nil => exact ⟨dir, sound, here, rfl⟩
  | cons action earlier ih =>
    obtain ⟨now, sound₁, there, left⟩ := ih
    obtain ⟨sound₂, leads⟩ := Deed.leads
      ⟨(w.answers (Request.each d earlier.reverse)).2.opened now, action⟩
      (sound₁.hosts.opened there)
    obtain ⟨there', opened⟩ := sound₁.opened_put there leads
    rw [Request.each, List.reverse_cons, List.map_append, List.map_singleton,
      World.answers_append, ← Request.each, sound₁.after_action there action]
    have same := congrArg (fun s => Deed.after ⟨s, action⟩) left
    exact ⟨_, sound₁.put there sound₂ leads, there', opened.trans same⟩

/-! ## The walk -/

/-- In every session a directory that is given actions, the latest first, comes to what it would
    come to if it demoted by a walk in every case, and answers every action as it would then.  What
    may differ is the generation of an entry that is stale or was destroyed while it was stale, the
    text of the fault when such a destroyed entry is updated, the order of the stale list, and the
    order in which keys are given back. -/
theorem Session.walking (session : Session past w) (here : w.directory? d = some dir)
    (actions : List Action) :
    (∃ now, (w.answers (Request.each d actions.reverse)).2.directory? d = some now ∧
      (w.answers (Request.each d actions.reverse)).2.opened now =
        (w.opened dir).leftBy .swap actions) ∧
    Opened.Alike ((w.opened dir).Faded .swap actions) ((w.opened dir).leftBy .swap actions)
      ((w.opened dir).leftBy .walk actions) ∧
    ∀ action,
      (((w.opened dir).leftBy .walk actions).answerBy .walk action =
          ((w.opened dir).leftBy .swap actions).answerBy .swap action ∨
        ∃ e, action = .update e ∧ (w.opened dir).Faded .swap actions e ∧
          ((w.opened dir).leftBy .swap actions).answerBy .swap action = .error (Fault.message
            (.destroyedEntry (((w.opened dir).leftBy .swap actions).entries.entry e))) ∧
          ((w.opened dir).leftBy .walk actions).answerBy .walk action = .error (Fault.message
            (.destroyedEntry (((w.opened dir).leftBy .walk actions).entries.entry e)))) ∧
      (((w.opened dir).leftBy .walk actions).keysBy .walk action).Perm
        (((w.opened dir).leftBy .swap actions).keysBy .swap action) := by
  have sound := session.sound
  have twins := Opened.twins_leftBy (sound.hosts.opened here) .swap .walk actions
  refine ⟨?_, twins.alike, fun action => ⟨?_, ?_⟩⟩
  · obtain ⟨now, -, there, left⟩ := sound.answers_left here actions
    exact ⟨now, there, left⟩
  · exact twins.answer_alike .swap .walk action
  · exact twins.keys_alike .swap .walk action

/-- An entry is inserted in an update, and destroyed by the next one, which does not confirm it. -/
def Action.unconfirmed : List Action :=
  [.endUpdate, .beginUpdate .exclusive 2, .insert "k" [1] [2], .beginUpdate .exclusive 1]

/-- A new directory in which that happened is told alike, although its entry was demoted otherwise
    and carries another generation. -/
theorem Session.walking_unconfirmed : ∃ past w dir, Session past w ∧ w.directory? 0 = some dir ∧
    deedsOf past 0 = [] ∧
    Opened.Alike ((w.opened dir).Faded .swap Action.unconfirmed)
      ((w.opened dir).leftBy .swap Action.unconfirmed)
      ((w.opened dir).leftBy .walk Action.unconfirmed) ∧
    (((w.opened dir).leftBy .swap Action.unconfirmed).entries.entry 0).generation = 1 ∧
    (((w.opened dir).leftBy .walk Action.unconfirmed).entries.entry 0).generation = 0 := by
  have session := Session.small.answers [⟨none, .create 0 none⟩]
  have found : ((World.small.answers [⟨none, .create 0 none⟩]).2.directory? 0).map (fun dir =>
      ((((World.small.answers [⟨none, .create 0 none⟩]).2.opened dir).leftBy .swap
          Action.unconfirmed).entries.entry 0).generation) = some 1 := by
    decide +kernel
  have found' : ((World.small.answers [⟨none, .create 0 none⟩]).2.directory? 0).map (fun dir =>
      ((((World.small.answers [⟨none, .create 0 none⟩]).2.opened dir).leftBy .walk
          Action.unconfirmed).entries.entry 0).generation) = some 0 := by
    decide +kernel
  obtain ⟨dir, here, stamp⟩ := Option.map_eq_some_iff.mp found
  rw [here] at found'
  exact ⟨_, _, dir, session, here, by decide +kernel,
    (Session.walking session here Action.unconfirmed).2.1, stamp, Option.some.inj found'⟩

/-- The text of the fault gives it away: not every action is answered as it would be if the
    directory demoted by a walk in every case. -/
theorem Session.walking_fails : ¬ ∀ past w d dir actions action, Session past w →
    w.directory? d = some dir → deedsOf past d = [] →
    ((w.opened dir).leftBy .walk actions).answerBy .walk action =
      ((w.opened dir).leftBy .swap actions).answerBy .swap action := by
  intro claim
  have session := Session.small.answers [⟨none, .create 0 none⟩]
  have found : ((World.small.answers [⟨none, .create 0 none⟩]).2.directory? 0).map (fun dir =>
      decide ((((World.small.answers [⟨none, .create 0 none⟩]).2.opened dir).leftBy .walk
          Action.unconfirmed).answerBy .walk (.update 0) =
        (((World.small.answers [⟨none, .create 0 none⟩]).2.opened dir).leftBy .swap
          Action.unconfirmed).answerBy .swap (.update 0))) = some false := by
    decide +kernel
  obtain ⟨dir, here, differ⟩ := Option.map_eq_some_iff.mp found
  have same := claim _ _ 0 dir Action.unconfirmed (.update 0) session here (by decide +kernel)
  exact absurd same (of_decide_eq_false differ)

end NameCache
