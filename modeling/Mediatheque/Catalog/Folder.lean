import Mediatheque.Media.Container
import Mediatheque.Text.Affix

/-!
# Root folders

The containers at the top of the catalog that are known by their class. Each has
a label and a rank, which gives its place in the listing of the root; most have
an id of their own, and the others take theirs from the name of the class.

* `RootFolder.table`: the folders, in ascending order of their ranks;
* `Container.ofRootClass`: the top-level container of a class;
* `rootOrder`: the order of the listing of the root.
-/

namespace Mediatheque

/-- A kind of top-level container. Volumes and servers get an id when they appear. -/
structure RootFolder where
  mediaClass : MediaClass
  label : String
  id : Option String
  rank : Nat
deriving DecidableEq

namespace RootFolder

/-- The root folders, in ascending order of their ranks. -/
def table : List RootFolder := [
  ⟨.rootFavorites, "Favorites", some "/favorites", 1⟩,
  ⟨.rootLibrary, "Library", some "/library", 2⟩,
  ⟨.rootMusicAlbums, "Music albums", some "/albums", 3⟩,
  ⟨.rootSongs, "Songs", some "/songs", 4⟩,
  ⟨.rootStreams, "Streams", some "/streams", 6⟩,
  ⟨.rootPodcasts, "Podcasts", some "/podcasts", 7⟩,
  ⟨.rootMovies, "Movies", some "/movies", 8⟩,
  ⟨.rootTvShows, "TV Shows", some "/series", 9⟩,
  ⟨.rootPhotos, "Photos", some "/photos", 10⟩,
  ⟨.rootDirectories, "Directories", some "/dirs", 11⟩,
  ⟨.rootRemovable, "Removable", none, 20⟩,
  ⟨.rootRemovableAudioCd, "Audio CD", none, 21⟩,
  ⟨.rootRemovableVcd, "VCD", none, 22⟩,
  ⟨.rootRemovableSvcd, "SVCD", none, 23⟩,
  ⟨.rootRemovableVideoDvd, "DVD", none, 24⟩,
  ⟨.rootRemovableFilesystem, "Filesystem", none, 25⟩,
  ⟨.rootRemovableHdd, "Filesystem", none, 26⟩,
  ⟨.rootRemovablePendrive, "Filesystem", none, 27⟩,
  ⟨.rootRemovableMemoryCard, "Filesystem", none, 28⟩,
  ⟨.rootRemovableMobile, "Filesystem", none, 29⟩,
  ⟨.rootRemovableCd, "Filesystem", none, 30⟩,
  ⟨.rootRemovableDvd, "Filesystem", none, 31⟩,
  ⟨.rootServer, "Network", none, 100⟩]

def ofClass? (c : MediaClass) : Option RootFolder := table.find? (·.mediaClass = c)

def ofId? (id : String) : Option RootFolder := table.find? (·.id = some id)

/-- The id of a folder without one of its own: the name of its class behind `root-`. -/
def idOfName (name : String) : String :=
  match dropPrefix? "root-".toList name.toList with
  | some rest => "/" ++ String.ofList rest
  | none => "/" ++ name

end RootFolder

namespace MediaClass

/-- The place of a class in the listing of the root. -/
def rootRank? (c : MediaClass) : Option Nat := (RootFolder.ofClass? c).map (·.rank)

/-- The root class whose folder has an id. -/
def ofRootId? (id : String) : Option MediaClass := (RootFolder.ofId? id).map (·.mediaClass)

/-- The rank that sorts a class, which is beyond all others for a class without one. -/
def sortRank (c : MediaClass) : Nat := c.rootRank?.getD (UInt32.size - 1)

end MediaClass

/-- The top-level container of a class. A class that is no root folder gets its name
for a label. -/
def Container.ofRootClass (c : MediaClass) : Container :=
  match RootFolder.ofClass? c with
  | some f => .new (f.id.getD (RootFolder.idOfName c.name)) f.label c
  | none => .new ("/" ++ c.name) c.name c

/-- Whether a top-level container stands before another: by rank, then by label. -/
def rootOrder (a b : Container) : Bool :=
  a.mediaClass.sortRank < b.mediaClass.sortRank ∨
    (a.mediaClass.sortRank = b.mediaClass.sortRank ∧ a.label < b.label)

end Mediatheque
