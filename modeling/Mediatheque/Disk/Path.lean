import Mediatheque.Text.Affix
import Mediatheque.Text.Fields

/-!
# Paths

Paths of files as text, and the layout of the directory of a database:

* a settings file with one section per context;
* a lock that is held while the database is open;
* a directory for the object caches of the backends;
* a directory for images derived from the library, cleared when a rescan starts.

`Path.join` puts one slash between two paths, unless the first is empty or ends with
one.
-/

namespace Mediatheque

namespace Path

/-- A path below another: joining an absolute path gives that path. -/
def join (base name : String) : String :=
  if startsWith name "/" then name
  else if base.isEmpty ∨ endsWith base "/" then base ++ name
  else base ++ "/" ++ name

/-- The parts of a path between slashes, empty ones included. -/
def components (path : String) : List String :=
  (splitAt (· = '/') path.toList).map String.ofList

/-- A path with the steps `.` and `..` taken, where a step above the root stays there. -/
def resolveDots (components : List String) : List String :=
  (components.foldl (fun taken step =>
    if step = "" ∨ step = "." then taken
    else if step = ".." then taken.tail
    else step :: taken) []).reverse

/-! ## The directory of a database -/

/-- The directory of the database below a base directory. -/
def databaseDir (base : String) : String := join base "medialib"

def configFile (databaseDir : String) : String := join databaseDir "config.toml"

def lockFile (databaseDir : String) : String := join databaseDir "lock"

def cacheDir (databaseDir : String) : String := join databaseDir "cache"

def thumbnailsDir (databaseDir : String) : String := join databaseDir "thumbnails"

end Path

end Mediatheque
