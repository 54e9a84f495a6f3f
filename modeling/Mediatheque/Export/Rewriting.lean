import Mediatheque.Export.Table
import Mediatheque.Media.Container

/-!
# External addresses of objects

An object that goes to clients gets, behind the sources that its backend named,
addresses that a client can fetch: those of exported files, and that of the playlist
for a station of a directory of radio stations. An object that comes back loses them
again.

* `Container.addExternalUris`, `Container.deleteExternalUris`;
* `StationDirectory.resolve?`: the playlist of a station.
-/

namespace Mediatheque

/-- A server that knows radio stations by an id. -/
structure StationDirectory where
  server : String
deriving DecidableEq, Inhabited

namespace StationDirectory

def scheme : String := "radiobrowser://"

/-- Whether a URI names a station. -/
def handles (uri : String) : Bool := startsWith uri scheme

/-- The address of the playlist of a station. -/
def resolve? (d : StationDirectory) (uri : String) : Option String := do
  let rest ← dropPrefix? scheme.toList uri.toList
  let station := rest.dropWhile (· = '/')
  if station.isEmpty then none
  else some ("https://" ++ d.server ++ "/m3u/url/" ++ String.ofList station)

end StationDirectory

def playlistMimetype : String := "application/mpegurl"

namespace SourceTable

/-- Appends a source unless its role has one with that URI. -/
def addUnique (t : SourceTable) (role : UriRole) (source : Source) : SourceTable :=
  if (t.sources role).any (·.uri = source.uri) then t else t.add role source

/-- Adds the playlist of the station that the first main source names. -/
def addStation (t : SourceTable) (stations : Option StationDirectory) : SourceTable :=
  match stations, t.sources .src with
  | some d, first :: _ =>
    match if StationDirectory.handles first.uri then d.resolve? first.uri else none with
    | some url => t.addUnique .src { uri := url, mimetype := some playlistMimetype }
    | none => t
  | _, _ => t

/-- Adds the addresses of the local files of a role. -/
def addExternals (exports : ExportTable) (canonical : Canonical) (t : SourceTable)
    (role : UriRole) : SourceTable :=
  ((t.sources role).filter Source.isLocal).foldl (fun t source =>
    match exports.localToExternal? canonical source.uri with
    | some uri => t.addUnique role { uri := uri, mimetype := source.mimetype }
    | none => t) t

/-- Adds the addresses that clients can fetch to the sources of every role. -/
def withExternals (exports : ExportTable) (canonical : Canonical)
    (stations : Option StationDirectory) (t : SourceTable) : SourceTable :=
  UriRole.all.foldl (addExternals exports canonical) (t.addStation stations)

/-- Keeps the first source of each role alone where that is a local file or names a
station. -/
def withoutExternals (stations : Option StationDirectory) : SourceTable → SourceTable :=
  map fun sources =>
    match sources with
    | first :: _ =>
      if first.isLocal || (stations.isSome && StationDirectory.handles first.uri) then [first]
      else sources
    | [] => []

end SourceTable

namespace Container

/-- Adds the addresses that clients can fetch to an object and to its parts. -/
def addExternalUris (exports : ExportTable) (canonical : Canonical)
    (stations : Option StationDirectory) (c : Container) : Container :=
  { c with
    sources := c.sources.withExternals exports canonical stations
    parts := c.parts.map fun p => p.addExternalUris exports canonical stations }
termination_by c
decreasing_by exact sizeOf_lt_of_mem_parts ‹_›

/-- Takes those addresses back. -/
def deleteExternalUris (stations : Option StationDirectory) (c : Container) : Container :=
  { c with
    sources := c.sources.withoutExternals stations
    parts := c.parts.map fun p => p.deleteExternalUris stations }
termination_by c
decreasing_by exact sizeOf_lt_of_mem_parts ‹_›

end Container

end Mediatheque
