/-!
# Sources

Where an object and its artwork can be fetched from. Each role an address can
have for an object holds a list of sources, in order of preference; the roles
themselves have a fixed order.

* `Source.isLocal`: whether a source is a file of this machine;
* `SourceTable.get?`, `SourceTable.set`: the list of a role.
-/

namespace Mediatheque

/-- One place an object can be fetched from, with the modification time of a local
file in seconds since the epoch. -/
structure Source where
  uri : String
  mimetype : Option String := none
  mtime : Option Int64 := none
deriving DecidableEq, Inhabited

namespace Source

/-- Whether a source is an absolute path instead of an address. -/
def isLocal (s : Source) : Bool := s.uri.toList.head? = some '/'

/-- The source with another media type. -/
def withMimetype (s : Source) (mimetype : String) : Source := { s with mimetype := some mimetype }

end Source

/-- What a source is for. -/
inductive UriRole where
  | src
  | cover
  | poster
  | wallpaper
  | icon
deriving DecidableEq, Inhabited

namespace UriRole

/-- The roles, in their order. -/
def all : List UriRole := [src, cover, poster, wallpaper, icon]

def name : UriRole → String
  | src => "src"
  | cover => "cover"
  | poster => "poster"
  | wallpaper => "wallpaper"
  | icon => "icon"

def ofName? (s : String) : Option UriRole := all.find? (·.name = s)

end UriRole

/-- The sources of an object by their role. A role may be absent, or present with
no source. -/
structure SourceTable where
  src : Option (List Source) := none
  cover : Option (List Source) := none
  poster : Option (List Source) := none
  wallpaper : Option (List Source) := none
  icon : Option (List Source) := none
deriving DecidableEq, Inhabited

namespace SourceTable

/-- The list of a role, if the role is present. -/
def get? (t : SourceTable) : UriRole → Option (List Source)
  | .src => t.src
  | .cover => t.cover
  | .poster => t.poster
  | .wallpaper => t.wallpaper
  | .icon => t.icon

/-- Makes a list the sources of a role. -/
def set (t : SourceTable) (sources : List Source) : UriRole → SourceTable
  | .src => { t with src := some sources }
  | .cover => { t with cover := some sources }
  | .poster => { t with poster := some sources }
  | .wallpaper => { t with wallpaper := some sources }
  | .icon => { t with icon := some sources }

theorem get?_set (t : SourceTable) (l : List Source) (r s : UriRole) :
    (t.set l r).get? s = if s = r then some l else t.get? s := by
  cases r <;> cases s <;> rfl

/-- The sources of a role, none if the role is absent. -/
def sources (t : SourceTable) (role : UriRole) : List Source := (t.get? role).getD []

/-- Appends a source to a role, which is present afterwards. -/
def add (t : SourceTable) (role : UriRole) (source : Source) : SourceTable :=
  t.set (t.sources role ++ [source]) role

/-- Applies a function to the list of every role that is present. -/
def map (f : List Source → List Source) (t : SourceTable) : SourceTable :=
  ⟨t.src.map f, t.cover.map f, t.poster.map f, t.wallpaper.map f, t.icon.map f⟩

/-- The roles that are present with their lists, in the order of the roles. -/
def entries (t : SourceTable) : List (UriRole × List Source) :=
  UriRole.all.filterMap fun r => (t.get? r).map (r, ·)

end SourceTable

end Mediatheque
