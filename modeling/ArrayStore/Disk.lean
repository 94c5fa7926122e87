import ArrayStore.Config.Basic
import ArrayStore.Path

/-!
# Where locations lie on disk

* `Disk` : a base directory, and `Disk.locate` a location under it;
* `Disk.ofConfig` : the base directory of a configuration.
-/

namespace ArrayStore

/-- Locations are joined to this base directory. -/
structure Disk where
  base : String := "."
  deriving DecidableEq, Repr, Inhabited

def Disk.ofConfig (settings : Config.Storage) : Disk := { base := settings.baseLocation }

/-- The path of a location; an absolute location is its own path. -/
def Disk.locate (disk : Disk) (location : String) : String :=
  String.ofList (Path.join disk.base.toList location.toList)

end ArrayStore
