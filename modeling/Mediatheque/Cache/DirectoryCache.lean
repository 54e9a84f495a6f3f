import Mediatheque.Disk.Basic

/-!
# Directory caches

Files that are derived from the library, such as thumbnails, and kept below one
directory. They are removed when a rescan starts; the directory itself stays.
-/

namespace Mediatheque

/-- A directory of derived files. -/
structure DirectoryCache where
  name : String
  dir : String
deriving DecidableEq, Inhabited

namespace DirectoryCache

/-- Removes all below the directory. A directory that is missing is left so. -/
def purge (c : DirectoryCache) (disk : Disk) : Disk := disk.clearDir c.dir

end DirectoryCache

end Mediatheque
