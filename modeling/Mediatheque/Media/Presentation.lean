import Mediatheque.Fault
import Mediatheque.Media.Container

/-!
# Presenting objects to clients

An object that leaves the library carries neither its children nor what is kept
for the library alone. In exchange it gets what a client wants to know of it: its
place among its siblings, the class that its children are expected to have, and a
hint for people.

* `Container.finalize`: one object, ready for clients;
* `finalizePage`: the objects of a page of children;
* `windowCount`: how many children a page holds.
-/

namespace Mediatheque

/-- What clients are told of the containers of a class. -/
structure ClassHint where
  mediaClass : MediaClass
  childClass : Option MediaClass
  tooltip : Option String

namespace ClassHint

def streamsTooltip : String :=
  "Add http(s) urls for Radio- or TV channels in m3u format.\n" ++
  "Use radiobrowser:// to import the database from radio-browser.info.\n" ++
  "Use iptv-org:// to import the database from https://iptv-org.github.io/"

/-- The hints of all classes that have one. -/
def table : List ClassHint := [
  ⟨.musicAlbum, some .song, none⟩,
  ⟨.tvSeason, some .tvEpisode, none⟩,
  ⟨.tvShow, some .tvSeason, none⟩,
  ⟨.root, none, none⟩,
  ⟨.rootMusicAlbums, some .container, none⟩,
  ⟨.rootSongs, some .container, none⟩,
  ⟨.rootMovies, some .container, none⟩,
  ⟨.rootTvShows, some .container, none⟩,
  ⟨.rootStreams, some .container, some streamsTooltip⟩,
  ⟨.rootDirectories, some .directory,
    some "Add directories, which will be scanned recursively for media files"⟩,
  ⟨.rootPodcasts, some .podcast, some "Add urls for podcast feeds (in RSS xml format)"⟩,
  ⟨.rootPhotos, none,
    some "Add directories, which will be scanned recursively for photo albums"⟩,
  ⟨.rootLibrary, none,
    some "Add generic containers, playlists or TV- or Radio channel lists"⟩,
  ⟨.rootRemovableAudioCd, some .song, none⟩]

def of? (c : MediaClass) : Option ClassHint := table.find? (·.mediaClass = c)

end ClassHint

namespace Container

/-- The class that children of a container are expected to have. What the container
says itself counts before the hint of its class. -/
def expectedChildClass? (c : Container) : Option MediaClass :=
  match c.childClass with
  | some k => some k
  | none => (ClassHint.of? c.mediaClass).bind (·.childClass)

/-- The container with the hint of its class, if there is one. -/
def withHint (c : Container) : Container :=
  match ClassHint.of? c.mediaClass with
  | none => c
  | some h => { c with childClass := h.childClass, tooltip := h.tooltip }

/-- An object as clients see it: without its children and internal fields, with its
position if one is given, and with the number of its siblings unless that is zero. -/
def finalize (c : Container) (idx : Option UInt64) (total : UInt64) : Container :=
  let stripped := { c with children := [], streams := none, backend := none }
  let hinted := stripped.withHint
  { hinted with
    idx := idx <|> hinted.idx
    total := if total = 0 then hinted.total else some total }

end Container

/-- The objects of a page, the first of which has the position `start` among `total`.
A position that 64 bits do not hold is a fault. -/
def finalizePage (start total : UInt64) (page : List Container) : Except Fault (List Container) :=
  if start.toNat + page.length ≤ UInt64.size then
    .ok (page.mapIdx fun i c => c.finalize (some (.ofNat (start.toNat + i))) total)
  else .error .overflow

/-- How many of `total` children a page from `start` on holds: none when it starts
behind the end, and all that remain when it asks for none in particular, for zero or
for more than those. -/
def windowCount (start : Nat) (count : Option Nat) (total : Nat) : Nat :=
  if total ≤ start then 0
  else
    let remaining := total - start
    match count with
    | some n => if 1 ≤ n ∧ n ≤ remaining then n else remaining
    | none => remaining

end Mediatheque
