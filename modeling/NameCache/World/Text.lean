/-
  Managers and what they provide, as texts.
-/
import NameCache.World.Basic

namespace NameCache

open Text

namespace World

/-- The way a manager provides pools, as a text. -/
def describeProvision (w : World) (provision : Provision) : String :=
  Record.whole "PoolProvider" [("strategy", match provision with
    | .shared p => Record.wrapped "Global" (w.pool p).describe
    | .separate buckets locks => Record.whole "Private" [
        ("bucket_count", toString buckets),
        ("locks", toString locks)])]

/-- A manager as a text, with its counters. -/
def describeManager (w : World) (manager : Manager) (tally : Tally) : String :=
  Record.whole "DirCacheManager" [
    ("config", manager.settings.describe),
    ("bucket_count", toString manager.buckets),
    ("bucket_locks", toString manager.locks),
    ("provider", w.describeProvision manager.provision),
    ("stats", tally.describe),
    ("enabled", Record.flag manager.enabled),
    ("next_dir_id", toString manager.nextId.toNat)]

end World

/-- The policy behind a provision, as a text. -/
def Provision.title : Provision → String
  | .shared _ => "Global"
  | .separate _ _ => "Private"

end NameCache
