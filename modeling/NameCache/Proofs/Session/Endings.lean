/-
  In every session the loops and scans end.

  A loop that empties a list of a directory goes as many rounds as the list has entries, and a
  lookup in a table looks at each entry of the bucket once at most (`Session.endings`).  The loops
  of the functions have bounds, but those are never reached: no request is answered with the fault
  that stands for it (`Request.avoids_endless`).

  That fault can only come from demoting and destroying.  `Avoids` follows a command through its
  steps; where it comes to work on a directory, the directory is sound.
-/
import NameCache.Proofs.Directory.Draining
import NameCache.Proofs.Scanning
import NameCache.Proofs.Session.Emptying

namespace NameCache

namespace Step

variable {ε σ α β : Type} {fault other : ε} {x : EStateM ε σ α} {f : α → EStateM ε σ β} {s t : σ}
  {a : α}

/-- An operation does not stop on a fault. -/
def Avoids (fault : ε) (x : EStateM ε σ α) (s : σ) : Prop := ∀ t, x s ≠ .error fault t

namespace Avoids

theorem of_ok (run : x s = .ok a t) : Avoids fault x s := by
  intro t stopped
  rw [run] at stopped
  exact absurd stopped (by simp)

theorem of_error (run : x s = .error other t) (ne : other ≠ fault) : Avoids fault x s := by
  intro t stopped
  rw [run] at stopped
  exact ne (EStateM.Result.error.inj stopped).1

protected theorem pure (a : α) (s : σ) : Avoids fault (pure a : EStateM ε σ α) s := of_ok rfl

protected theorem throw (ne : other ≠ fault) (s : σ) :
    Avoids fault (throw other : EStateM ε σ α) s := of_error rfl ne

protected theorem modify (change : σ → σ) (s : σ) :
    Avoids fault (modify change : EStateM ε σ PUnit) s := of_ok rfl

protected theorem bind (first : Avoids fault x s)
    (rest : ∀ a t, x s = .ok a t → Avoids fault (f a) t) : Avoids fault (x >>= f) s := by
  intro t stopped
  cases run : x s with
  | ok a s' =>
    rw [bind_of_ok run] at stopped
    exact rest a s' run t stopped
  | error other s' =>
    rw [bind_of_error run] at stopped
    obtain ⟨rfl, rfl⟩ := EStateM.Result.error.inj stopped
    exact first _ run

theorem get_bind {f : σ → EStateM ε σ β} (rest : Avoids fault (f s) s) :
    Avoids fault (get >>= f) s := rest

theorem ite {c : Prop} [Decidable c] {y : EStateM ε σ α} (hx : Avoids fault x s)
    (hy : Avoids fault y s) : Avoids fault (if c then x else y) s := by
  split
  · exact hx
  · exact hy

/-- A sequence stops where its first part does. -/
theorem of_bind (both : Avoids fault (x >>= f) s) : Avoids fault x s :=
  fun t stopped => both t (bind_of_error stopped)

/-- An operation on a part stops where it does on the part. -/
theorem focus {τ : Type} {fault : Fault} {part : σ → τ} {replace : σ → τ → σ} {op : Step τ α}
    (avoids : Avoids fault op (part s)) : Avoids fault (Step.focus part replace op) s := by
  intro t stopped
  rw [Step.focus] at stopped
  cases run : op (part s) with
  | ok a s' =>
    rw [run] at stopped
    exact absurd stopped (by simp)
  | error other s' =>
    rw [run] at stopped
    obtain ⟨rfl, -⟩ := EStateM.Result.error.inj stopped
    exact avoids _ run

end Avoids

end Step

open Step

variable {w : World} {past : List Moment} {s : Opened} {others : Nat → Prop}

/-! ## No bound is reached in a directory -/

namespace Opened

/-- What stands against an action is a caller's mistake. -/
theorem Objects.ne_endless {action : Action} {fault : Fault} (objects : s.Objects action fault) :
    fault ≠ .endless := by
  cases objects <;> simp

theorem avoids_run (sound : s.Sound others) (expiry : Expiry) (action : Action) :
    Avoids .endless (action.run expiry) s := by
  by_cases accepts : s.ledger.Accepts action
  · obtain ⟨outcome, s', run, -⟩ := accepted_spec sound expiry action accepts
    exact .of_ok run
  · obtain ⟨fault, objects, run⟩ := refused_spec sound expiry action accepts
    exact .of_error run objects.ne_endless

theorem avoids_confirmFound (sound : s.Sound others) (encname : Bytes) :
    Avoids .endless (Command.confirmFound encname) s := by
  refine .bind (.of_ok (lookupEncname_run encname s)) fun found s' looked => ?_
  obtain ⟨-, rfl⟩ := EStateM.Result.ok.inj ((lookupEncname_run encname s).symm.trans looked)
  cases found with
  | none => exact .of_ok rfl
  | some e =>
    have update : Avoids .endless (update .swap e)
        (s.lookedUp .encrypted encname (s.findEncname encname)) :=
      .of_bind (avoids_run (sound.recorded _ _) .swap (.update e))
    exact .bind update fun _ _ _ => .pure _ _

end Opened

/-! ## Nor in the world -/

namespace World

theorem avoids_require {α : Type} {made : Except Fault α} (ne : made ≠ .error .endless)
    (w : World) : Avoids .endless (Step.require made : Step World α) w := by
  cases made with
  | ok a => exact .pure _ _
  | error fault => exact .of_error rfl fun same => ne (congrArg Except.error same)

/-- Only a bad geometry keeps a pool from being made. -/
theorem create_ne_endless (buckets locks : Nat) :
    Pool.create buckets locks ≠ .error .endless := by
  by_cases fit : Table.Geometry buckets locks
  · simp [Pool.create, Table.create, fit, bind, Except.bind, pure, Except.pure]
  · simp [Pool.create, Table.create, fit, bind, Except.bind]

theorem avoids_providePool (provision : Provision) (w : World) :
    Avoids .endless (providePool provision) w := by
  cases provision with
  | shared p => exact .pure _ _
  | separate buckets locks =>
    refine .bind (.modify _ _) fun _ w' _ => ?_
    exact .bind (avoids_require (create_ne_endless buckets locks) w') fun _ _ _ => .of_ok rfl

theorem avoids_takeBack (provision : Provision) (p : Nat) (w : World) :
    Avoids .endless (takeBack provision p) w := by
  cases provision with
  | shared q => exact .ite (.throw (by simp) w) (.pure _ _)
  | separate buckets locks =>
    refine .get_bind (.ite ?_ (.modify _ _))
    exact .ite (.bind (.modify _ _) fun _ _ _ => .modify _ _) (.modify _ _)

/-- Directories that are dropped at once have no entries to destroy. -/
theorem avoids_passDirectories (m p n : Nat) (w : World) :
    Avoids .endless (passDirectories m p n) w := by
  induction n generalizing w with
  | zero => exact .pure _ _
  | succ n ih =>
    refine .get_bind ?_
    cases hm : w.manager? m with
    | none => exact .pure _ _
    | some manager =>
      refine .bind (.of_ok rfl) fun dir w' made => ?_
      obtain ⟨rfl, rfl⟩ := EStateM.Result.ok.inj made
      exact .bind (.of_ok (finish_run _ _ _ _)) fun _ _ _ => ih _

end World

/-! ## Nor by a command -/

namespace Running

variable {α β : Type}

theorem avoids_perform {op : Step World α} (avoids : Avoids .endless op w) :
    Avoids (.fault .endless) (perform op) w := by
  intro w' stopped
  rw [perform] at stopped
  cases run : op w with
  | ok a w₁ =>
    rw [run] at stopped
    exact absurd stopped (by simp)
  | error fault w₁ =>
    rw [run] at stopped
    obtain ⟨same, -⟩ := EStateM.Result.error.inj stopped
    exact avoids w₁ (by rw [run, Refusal.fault.inj same])

/-- What a number names is looked up without any change. -/
theorem avoids_need {what : Missing} {find : World → Option α} {f : α → Running β}
    (rest : ∀ a, find w = some a → Avoids (.fault .endless) (f a) w) :
    Avoids (.fault .endless) (need what find >>= f) w := by
  intro w' stopped
  cases named : find w with
  | none =>
    have missing : need what find w = .error (.missing what) w := by rw [need_run, named]
    rw [bind_of_error missing] at stopped
    exact absurd (EStateM.Result.error.inj stopped).1 (by simp)
  | some a =>
    have found : need what find w = .ok a w := by rw [need_run, named]
    rw [bind_of_ok found] at stopped
    exact rest a named w' stopped

theorem avoids_checkManager (m : Option Nat) : Avoids (.fault .endless) (checkManager m) w := by
  cases m with
  | none => exact .pure _ _
  | some m => exact avoids_need fun _ _ => .pure _ _

theorem avoids_takeHandle (p : Nat) (w : World) : Avoids (.fault .endless) (takeHandle p) w :=
  .bind (avoids_perform (.of_ok rfl)) fun _ _ _ => .of_ok rfl

end Running

section Commands

open Running

/-- No command stops because a bound is reached. -/
theorem Command.avoids_endless (sound : w.Sound) (c : Command) :
    Avoids (.fault .endless) c.run w := by
  cases c with
  | managerInfo m => exact avoids_need fun _ _ => .of_ok rfl
  | counters m => exact avoids_need fun _ _ => .of_ok rfl
  | describeManager m => exact avoids_need fun _ _ => .of_ok rfl
  | setEnabled m enabled =>
    refine avoids_need fun _ _ => .bind (avoids_perform (.of_ok rfl)) fun _ w' _ => ?_
    exact avoids_need fun _ _ => .of_ok rfl
  | shutdown m =>
    refine avoids_need fun manager _ => .bind (avoids_perform ?_) fun _ _ _ => .of_ok rfl
    exact .get_bind (.ite (.of_ok rfl) (.of_ok rfl))
  | takePool m =>
    refine avoids_need fun manager _ => ?_
    exact .bind (avoids_perform (World.avoids_providePool _ _)) fun p w' _ => avoids_takeHandle p w'
  | poolOf d => exact avoids_need fun dir _ => avoids_takeHandle dir.pool w
  | poolInfo p => exact avoids_need fun _ _ => .of_ok rfl
  | poolAlive p => exact avoids_need fun _ _ => .of_ok rfl
  | describePool p => exact avoids_need fun _ _ => .of_ok rfl
  | giveBack p m =>
    refine avoids_need fun manager _ => avoids_need fun owned _ => ?_
    refine .bind (avoids_perform (.of_ok rfl)) fun _ w' _ => ?_
    exact .bind (avoids_perform (World.avoids_takeBack _ _ _)) fun _ _ _ => .of_ok rfl
  | dropHandle p m =>
    refine .bind (avoids_checkManager m) fun _ w' _ => avoids_need fun _ _ => ?_
    exact .bind (avoids_perform (.of_ok rfl)) fun _ _ _ => .of_ok rfl
  | create m p =>
    refine avoids_need fun owner _ => ?_
    cases p with
    | some p => exact avoids_need fun _ _ => .of_ok rfl
    | none =>
      exact .bind (avoids_perform (World.avoids_providePool _ _)) fun _ _ _ => .of_ok rfl
  | skip m n =>
    refine avoids_need fun manager _ => ?_
    refine .bind (avoids_perform (World.avoids_providePool _ _)) fun p w' _ => ?_
    exact .bind (avoids_perform (World.avoids_passDirectories m p n w')) fun _ _ _ => .of_ok rfl
  | destroy d m =>
    refine avoids_need fun dir here => avoids_need fun manager _ => ?_
    obtain ⟨s, _, dropped, -⟩ := dropDirectory_settled sound here
    refine .bind (avoids_perform (.of_ok dropped)) fun _ w' _ => ?_
    exact .bind (avoids_perform (World.avoids_takeBack _ _ _)) fun _ _ _ => .of_ok rfl
  | drop d =>
    refine avoids_need fun dir here => ?_
    obtain ⟨s, _, dropped, -⟩ := dropDirectory_settled sound here
    exact .bind (avoids_perform (.of_ok dropped)) fun _ _ _ => .of_ok rfl
  | describeDirectory d => exact avoids_need fun _ _ => .of_ok rfl
  | directoryInfo d => exact avoids_need fun _ _ => .of_ok rfl
  | within d action =>
    refine avoids_need fun dir here => ?_
    have work : Avoids (.fault .endless) (do
        let outcome ← perform (World.onDirectory d dir (action.run .swap))
        return outcomeReply (← get) action outcome : Running Reply) w := by
      have avoids := Opened.avoids_run (sound.hosts.opened here) .swap action
      exact .bind (avoids_perform (.focus avoids)) fun _ _ _ => .of_ok rfl
    cases action with
    | update e => exact avoids_need fun _ _ => work
    | _ => exact work
  | confirm d encname =>
    refine avoids_need fun dir here => ?_
    have avoids := Opened.avoids_confirmFound (sound.hosts.opened here) encname
    exact .bind (avoids_perform (.focus avoids)) fun _ _ _ => .of_ok rfl
  | entryInfo e => exact avoids_need fun _ _ => .of_ok rfl
  | acquireKey e =>
    refine avoids_need fun entry _ => ?_
    cases entry.key <;> exact .of_ok rfl
  | releaseKey h => exact avoids_need fun _ _ => .of_ok rfl

end Commands

/-- So no request is answered with that fault. -/
theorem Request.avoids_endless (sound : w.Sound) (r : Request) :
    (r.answer w).1.reply ≠ .error (.fault .endless) := by
  have run := Moment.run_eq ⟨w, r⟩
  rw [Request.reply_eq]
  cases stopped : r.run w with
  | ok reply w' => simp
  | error refusal w' =>
    rintro same
    obtain rfl := Except.error.inj same
    rw [stopped] at run
    split at run
    · exact Command.avoids_endless sound r.command w' run.symm
    · exact absurd (EStateM.Result.error.inj run).1 (by simp)

/-! ## The loops and the scans -/

/-- In every session the loops that empty a list of a directory and the scans of buckets end.

    Demoting by a walk, from whatever the entries, the counters and the log have become by then, the
    end of an update, and each of the two loops of a purge go as many rounds as their list has
    entries; each round takes one off, and puts none on a list that is still to be emptied.  A
    lookup looks at each entry of its bucket once at most.  And no bound that a loop is given is
    ever reached. -/
theorem Session.endings (session : Session past w) :
    (∀ d dir, w.directory? d = some dir →
      (∀ s : Opened, s.dir = dir → ∃ path t,
        Opened.Drains Opened.activeFront Opened.demote dir.active.list
          (some dir.active.other.list) { s with dir := { dir with generation := 0 } } path t ∧
        ∀ expiry, expiry = .walk ∨ dir.staleCount ≠ 0 →
          Opened.expire expiry s = .ok () { t with tally := t.tally.addExpiration }) ∧
      ∃ path t path' u,
        Opened.Drains (Opened.onLists (SlotLists.front dir.active.other.list)) Opened.free
          dir.active.other.list none (w.opened dir) path t ∧
        Opened.Drains (Opened.onLists (SlotLists.front dir.active.list)) Opened.free
          dir.active.list none t path' u ∧
        t.dir.lists.values dir.active.list = dir.activeEntries ∧
        (dir.updating = true → Opened.endUpdate (w.opened dir) = .ok path.length
          { t with
            dir := { t.dir with updating := false }
            log := t.log.emit (.endedUpdate dir.id dir.generation path.length) }) ∧
        Opened.purge (w.opened dir) = .ok (path.length + path'.length)
          { u with
            log := u.log.emitAll (Opened.purgeTrace dir.id (path.length + path'.length)) }) ∧
    (∀ p kind hash accepts, p < w.pools.size →
      ∃ seen, ((w.pool p).table kind).Looks hash accepts seen) ∧
    ∀ r : Request, (r.answer w).1.reply ≠ .error (.fault .endless) := by
  have sound := session.sound
  refine ⟨fun d dir here => ⟨?_, Opened.purge_drains (sound.hosts.opened here)⟩,
    fun p kind hash accepts hp => ?_, fun r => r.avoids_endless sound⟩
  · rintro s rfl
    have standing := sound.hosts.standing d s.dir here
    exact Opened.expire_drains standing.sound standing.two
  · obtain ⟨order, linked, -, -⟩ := sound.hosts.pools p hp
    exact (linked.table kind).1.looks hash accepts

/-- The first directory, half way through its scan with one more entry inserted, has two active
    entries and one that waits; a walk goes two rounds, and a purge goes one and then two.  A lookup
    for the entry that the second directory has in the same bucket looks at three of four. -/
theorem Session.endings_halfway : ∃ past w dir, Session past w ∧ w.directory? 0 = some dir ∧
    dir.activeEntries = [3, 0] ∧ dir.staleEntries = [2] ∧
    (∃ path t, Opened.Drains Opened.activeFront Opened.demote dir.active.list
        (some dir.active.other.list) ((w.opened { dir with generation := 0 })) path t ∧
      path.length = 2 ∧ Opened.expire .swap (w.opened dir) =
        .ok () { t with tally := t.tally.addExpiration }) ∧
    (∃ path t path' u,
      Opened.Drains (Opened.onLists (SlotLists.front dir.active.other.list)) Opened.free
        dir.active.other.list none (w.opened dir) path t ∧ path.length = 1 ∧
      Opened.Drains (Opened.onLists (SlotLists.front dir.active.list)) Opened.free
        dir.active.list none t path' u ∧ path'.length = 2) ∧
    ((w.pool 0).table .plain).bucket (Digest.ofName 1 [1]) = [3, 2, 1, 0] ∧
    ((w.pool 0).table .plain).Looks (Digest.ofName 1 [1]) (· == 1) [3, 2, 1] := by
  let requests := Request.halfway ++ [⟨none, .within 0 (.insert "k" [1] [2])⟩]
  have session := Session.pair.answers requests
  have found : ((World.pair.answers requests).2.directory? 0).map
      (fun dir => (dir.activeEntries, dir.staleEntries, dir.staleCount)) =
        some ([3, 0], [2], 1) := by
    decide +kernel
  obtain ⟨dir, here, shown⟩ := Option.map_eq_some_iff.mp found
  obtain ⟨active, rest⟩ := Prod.mk.inj shown
  obtain ⟨stale, count⟩ := Prod.mk.inj rest
  have bucket : (((World.pair.answers requests).2.pool 0).table .plain).bucket
      (Digest.ofName 1 [1]) = [3, 2, 1, 0] := by
    decide +kernel
  obtain ⟨loops, scans, -⟩ := Session.endings session
  obtain ⟨walks, path, t, path', u, drains, drains', same, -⟩ := loops 0 dir here
  obtain ⟨path₁, t₁, walk, expires⟩ := walks ((World.pair.answers requests).2.opened dir) rfl
  obtain ⟨seen, looks⟩ := scans 0 .plain (Digest.ofName 1 [1]) (· == 1) (by decide +kernel)
  have three : seen = [3, 2, 1] := by
    rw [looks.reach, bucket]
    rfl
  refine ⟨_, _, dir, session, here, active, stale,
    ⟨path₁, t₁, walk, ?_, expires .swap (.inr (by rw [count]; decide))⟩,
    ⟨path, t, path', u, drains, ?_, drains', ?_⟩, bucket, three ▸ looks⟩
  · exact walk.rounds.trans (congrArg List.length active)
  · exact drains.rounds.trans (congrArg List.length stale)
  · exact drains'.rounds.trans (congrArg List.length (same.trans active))

end NameCache
