/-
  The operations on one directory, as data.

  An action is run on an opened directory and answers with an outcome.  `beginUpdate` says under
  which hold on the directory it was asked for; the holds that cannot be turned into an exclusive
  one leave a trace of their being given up, and all end in the same state.
-/
import NameCache.Directory.Lookup
import NameCache.Directory.Update

namespace NameCache

/-- The hold on a directory under which an update is begun. -/
inductive Hold where
  /-- An exclusive hold. -/
  | exclusive
  /-- A shared hold, which is given up before the exclusive one is taken. -/
  | shared
  /-- An upgradable hold that is upgraded. -/
  | upgradable
  /-- An upgradable hold that others keep from being upgraded. -/
  | contended
  deriving DecidableEq, Repr

/-- An operation on a directory. -/
inductive Action where
  | insert (label : String) (name encname : Bytes)
  | update (e : Nat)
  | lookupName (name : Bytes)
  | lookupEncname (encname : Bytes)
  | beginUpdate (hold : Hold) (generation : UInt64)
  | endUpdate
  | abortUpdate
  | purge
  deriving DecidableEq, Repr

/-- What an action answers. -/
inductive Outcome where
  | done
  /-- The entry made. -/
  | made (e : Nat)
  /-- The entry found, if any. -/
  | found (e : Option Nat)
  /-- The number of entries destroyed. -/
  | freed (count : Nat)
  /-- The generation of the directory after an update was asked for. -/
  | began (generation : UInt64)
  deriving DecidableEq, Repr

namespace Action

/-- The trace that giving up a hold leaves. -/
def giveUp : Hold → Step Opened Unit
  | .exclusive => pure ()
  | .shared => do Opened.emit (.reacquired (← get).dir.id)
  | .upgradable => pure ()
  | .contended => do Opened.emit (.upgradeFailed (← get).dir.id)

/-- Run an action. -/
def run (expiry : Expiry) : Action → Step Opened Outcome
  | .insert label name encname => return .made (← Opened.insert expiry label name encname)
  | .update e => do Opened.update expiry e; return .done
  | .lookupName name => return .found (← Opened.lookupName name)
  | .lookupEncname encname => return .found (← Opened.lookupEncname encname)
  | .beginUpdate hold generation => do
    giveUp hold
    Opened.beginUpdate expiry generation
    return .began (← get).dir.generation
  | .endUpdate => return .freed (← Opened.endUpdate)
  | .abortUpdate => do Opened.abortUpdate expiry; return .done
  | .purge => return .freed (← Opened.purge)

/-! ## A scan that confirms one entry and destroys the other -/

example : (do
    let _ ← Action.run .swap (.insert "k" [0x61] [0x41])
    let _ ← Action.run .swap (.insert "k" [0x62] [0x42])
    let _ ← Action.run .swap (.beginUpdate .exclusive 7)
    let _ ← Action.run .swap (.update 1)
    Action.run .swap .endUpdate : Step Opened Outcome).run'
      { dir := { id := 1, manager := 0, pool := 0 }, entries := #[], tally := {}, log := {},
        pool := ⟨.empty .plain 2 1, .empty .encrypted 2 1⟩ } = some (.freed 1) := by
  decide +kernel

end Action

end NameCache
