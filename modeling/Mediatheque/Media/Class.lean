/-!
# Media classes

The class of an object says what it is: one of the root folders of the
catalog, a kind of container, or a kind of item. A class is known by its name,
which is what messages and settings carry; a name that is not in the table is a
class of its own and is kept as it is.

* `MediaClass.name`, `MediaClass.ofName`: a class and its name;
* `MediaClass.parse`, `MediaClass.ofText`, `MediaClass.intoText`: the same by a table of texts.
-/

namespace Mediatheque

/-- What an object of the catalog is. -/
inductive MediaClass where
  | root
  | rootFavorites
  | rootLibrary
  | rootMusicAlbums
  | rootSongs
  | rootStreams
  | rootPodcasts
  | rootMovies
  | rootTvShows
  | rootPhotos
  | rootDirectories
  | rootRemovable
  | rootRemovableAudioCd
  | rootRemovableVcd
  | rootRemovableSvcd
  | rootRemovableVideoDvd
  | rootRemovableFilesystem
  | rootRemovableHdd
  | rootRemovablePendrive
  | rootRemovableMemoryCard
  | rootRemovableMobile
  | rootRemovableCd
  | rootRemovableDvd
  | rootServer
  | container
  | playlist
  | directory
  | musicAlbum
  | tvShow
  | tvSeason
  | podcast
  | song
  | podcastEpisode
  | movie
  | tvEpisode
  | video
  | image
  | audioBroadcast
  | videoBroadcast
  | location
  | other (name : String)
deriving DecidableEq, Inhabited

namespace MediaClass

/-- The name of a class. -/
def name : MediaClass → String
  | root => "root"
  | rootFavorites => "root-favorites"
  | rootLibrary => "root-library"
  | rootMusicAlbums => "root-music-albums"
  | rootSongs => "root-songs"
  | rootStreams => "root-streams"
  | rootPodcasts => "root-podcasts"
  | rootMovies => "root-movies"
  | rootTvShows => "root-tv-shows"
  | rootPhotos => "root-photos"
  | rootDirectories => "root-directories"
  | rootRemovable => "root-removable"
  | rootRemovableAudioCd => "root-removable-audiocd"
  | rootRemovableVcd => "root-removable-vcd"
  | rootRemovableSvcd => "root-removable-svcd"
  | rootRemovableVideoDvd => "root-removable-videodvd"
  | rootRemovableFilesystem => "root-removable-filesystem"
  | rootRemovableHdd => "root-removable-filesystem-hdd"
  | rootRemovablePendrive => "root-removable-filesystem-pendrive"
  | rootRemovableMemoryCard => "root-removable-filesystem-memorycard"
  | rootRemovableMobile => "root-removable-filesystem-mobile"
  | rootRemovableCd => "root-removable-filesystem-cd"
  | rootRemovableDvd => "root-removable-filesystem-dvd"
  | rootServer => "root-server"
  | container => "container"
  | playlist => "playlist"
  | directory => "directory"
  | musicAlbum => "music-album"
  | tvShow => "tv-show"
  | tvSeason => "tv-season"
  | podcast => "podcast"
  | song => "song"
  | podcastEpisode => "podcast-episode"
  | movie => "movie"
  | tvEpisode => "tv-episode"
  | video => "video"
  | image => "image"
  | audioBroadcast => "audio-broadcast"
  | videoBroadcast => "video-broadcast"
  | location => "location"
  | other name => name

/-- The classes that have a name in the table. -/
def known : List MediaClass :=
  [root, rootFavorites, rootLibrary, rootMusicAlbums, rootSongs, rootStreams,
   rootPodcasts, rootMovies, rootTvShows, rootPhotos, rootDirectories, rootRemovable,
   rootRemovableAudioCd, rootRemovableVcd, rootRemovableSvcd, rootRemovableVideoDvd,
   rootRemovableFilesystem, rootRemovableHdd, rootRemovablePendrive,
   rootRemovableMemoryCard, rootRemovableMobile, rootRemovableCd, rootRemovableDvd,
   rootServer, container, playlist, directory, musicAlbum, tvShow, tvSeason, podcast,
   song, podcastEpisode, movie, tvEpisode, video, image, audioBroadcast,
   videoBroadcast, location]

/-- The class with a name: the one in the table, or else a class of its own. -/
def ofName (s : String) : MediaClass := (known.find? (·.name = s)).getD (other s)

/-! ## The table the other way round -/

/-- The class that a text names, row by row. -/
def parse : String → MediaClass
  | "root" => root
  | "root-favorites" => rootFavorites
  | "root-library" => rootLibrary
  | "root-music-albums" => rootMusicAlbums
  | "root-songs" => rootSongs
  | "root-streams" => rootStreams
  | "root-podcasts" => rootPodcasts
  | "root-movies" => rootMovies
  | "root-tv-shows" => rootTvShows
  | "root-photos" => rootPhotos
  | "root-directories" => rootDirectories
  | "root-removable" => rootRemovable
  | "root-removable-audiocd" => rootRemovableAudioCd
  | "root-removable-vcd" => rootRemovableVcd
  | "root-removable-svcd" => rootRemovableSvcd
  | "root-removable-videodvd" => rootRemovableVideoDvd
  | "root-removable-filesystem" => rootRemovableFilesystem
  | "root-removable-filesystem-hdd" => rootRemovableHdd
  | "root-removable-filesystem-pendrive" => rootRemovablePendrive
  | "root-removable-filesystem-memorycard" => rootRemovableMemoryCard
  | "root-removable-filesystem-mobile" => rootRemovableMobile
  | "root-removable-filesystem-cd" => rootRemovableCd
  | "root-removable-filesystem-dvd" => rootRemovableDvd
  | "root-server" => rootServer
  | "container" => container
  | "playlist" => playlist
  | "directory" => directory
  | "music-album" => musicAlbum
  | "tv-show" => tvShow
  | "tv-season" => tvSeason
  | "podcast" => podcast
  | "song" => song
  | "podcast-episode" => podcastEpisode
  | "movie" => movie
  | "tv-episode" => tvEpisode
  | "video" => video
  | "image" => image
  | "audio-broadcast" => audioBroadcast
  | "video-broadcast" => videoBroadcast
  | "location" => location
  | text => other text

/-- The class of a text that is handed over: a class of its own keeps the text. -/
def ofText (s : String) : MediaClass :=
  match parse s with
  | other _ => other s
  | c => c

/-- The text that a class is handed over as: a class of its own gives the one it keeps. -/
def intoText : MediaClass → String
  | other s => s
  | c => c.name

instance : ToString MediaClass := ⟨name⟩

/-! ## Kinds of classes -/

/-- Whether a class is none of the table. -/
def isOther : MediaClass → Bool
  | other _ => true
  | _ => false

/-- Whether a class is kept at the top level of the catalog. -/
def isRoot : MediaClass → Bool
  | root | rootFavorites | rootLibrary | rootMusicAlbums
  | rootSongs | rootStreams | rootPodcasts | rootMovies
  | rootTvShows | rootPhotos | rootDirectories | rootRemovable
  | rootRemovableAudioCd | rootRemovableVcd | rootRemovableSvcd | rootRemovableVideoDvd
  | rootRemovableFilesystem | rootRemovableHdd | rootRemovablePendrive | rootRemovableMemoryCard
  | rootRemovableMobile | rootRemovableCd | rootRemovableDvd | rootServer => true
  | _ => false

/-- Whether objects of a class have children: the root folders, the kinds of
container, and every class of its own whose name starts with `container`. -/
def isContainer : MediaClass → Bool
  | container | playlist | directory | musicAlbum | tvShow | tvSeason | podcast => true
  | other name => "container".toList.isPrefixOf name.toList
  | c => c.isRoot

end MediaClass

end Mediatheque
