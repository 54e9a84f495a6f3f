import Mediatheque.Media.Parameter
import Mediatheque.Text.Affix
import Mediatheque.Text.Percent
import Mediatheque.Text.Sha256

/-!
# The export table

Which files of this machine clients on the network can fetch, and under which
address. The path of an exported directory is replaced by a digest of it, so that
addresses do not show where files are kept. Files are exported while exporting is
switched on, below a directory of the table or of the list of exported directories,
and not below one of the restricted directories.

Paths may have other spellings. A function from a path to its canonical spelling
stands for what the file system says; both spellings are looked up.

* `ExportTable.localToExternal?`: the address of a file;
* `ExportTable.externalToLocal?`: the file behind the path of an address.
-/

namespace Mediatheque

/-- What the file system says of the canonical spelling of a path. -/
abbrev Canonical := String → Option String

/-- The digest of a directory's path that stands for it in addresses. -/
def pathHash (path : String) : String := Sha256.hexDigest 16 path

/-- The exported directories and the settings that govern them. -/
structure ExportTable where
  /-- The address of the server, without a slash at its end. -/
  rootUri : Option String := none
  enabled : Bool := false
  allowed : List String := []
  restricted : List String := []
  /-- The directories of the table, each with a slash at its end. -/
  dirs : List String := []
deriving DecidableEq, Inhabited

namespace ExportTable

def empty : ExportTable := {}

/-! ## Settings -/

/-- The settings that the table takes. -/
def parameters : List ParameterInfo := [
  { name := "export_media_dirs", longName := "Export media files", kind := .checkbox
    default := some (.bool false)
    help := some ("Make media files available in the LAN. " ++
      "You can in- and exclude specific directories below.") },
  { name := "export_dirs", longName := "Directories to export", kind := .dirList
    help := some "Files under these directories are exported in the LAN." },
  { name := "restrict_dirs", longName := "Restricted directories", kind := .dirList
    help := some "Files under these directories are *not* exported in the LAN." }]

/-- Sets the address of the server. -/
def setRootUri (t : ExportTable) (uri : String) : ExportTable :=
  { t with rootUri := some (String.ofList (dropTrailing (· = '/') uri.toList)) }

/-- Applies a setting; a value of another kind counts as none. Settings that the table
does not take leave it alone, which the answer tells. -/
def setParameter (t : ExportTable) (name : String) (value : ParameterValue) :
    ExportTable × Bool :=
  match name with
  | "export_media_dirs" => ({ t with enabled := value.asBool?.getD false }, true)
  | "export_dirs" => ({ t with allowed := value.asList?.getD [] }, true)
  | "restrict_dirs" => ({ t with restricted := value.asList?.getD [] }, true)
  | _ => (t, false)

/-! ## Directories -/

/-- A path with a slash at its end. -/
def slashed (path : String) : String := if endsWith path "/" then path else path ++ "/"

/-- The path that stands for a directory in addresses. -/
def externalPath (dir : String) : String := "/media/" ++ pathHash dir ++ "/"

/-- Whether a path is in a directory, or is the directory's own without its slash. -/
def covers (dir path : String) : Bool := startsWith path dir || dir = path ++ "/"

/-- The directory of the table that a path is in. -/
def dirOf? (t : ExportTable) (path : String) : Option String := t.dirs.find? (covers · path)

/-- Adds a directory, unless the table has it. -/
def add (t : ExportTable) (path : String) : ExportTable :=
  if slashed path ∈ t.dirs then t else { t with dirs := t.dirs ++ [slashed path] }

/-- Removes the directory that a path is in. -/
def delete (t : ExportTable) (path : String) : ExportTable :=
  { t with dirs := t.dirs.eraseP (covers · path) }

/-! ## Access -/

/-- Whether a path is one of a list of directories or below one. -/
def isBelow (dirs : List String) (path : String) : Bool :=
  dirs.any fun dir =>
    match dropPrefix? (dropTrailing (· = '/') dir.toList) path.toList with
    | none => false
    | some rest => rest.isEmpty || rest.head? = some '/'

/-- Whether a file is exported: one of its spellings is allowed, and none restricted. -/
def isExported (t : ExportTable) (canonical : Canonical) (path : String) : Bool :=
  let spellings := path :: (canonical path).toList
  t.enabled &&
    spellings.any (fun p => (t.dirOf? p).isSome || isBelow t.allowed p) &&
    !spellings.any (isBelow t.restricted)

/-- The file behind the path of an address, if it is exported. -/
def externalToLocal? (t : ExportTable) (canonical : Canonical) (path : String) : Option String := do
  let dir ← t.dirs.find? fun dir => startsWith path (externalPath dir)
  let rest ← afterPrefix? (externalPath dir) path
  let file := dir ++ rest
  if t.isExported canonical file then some file else none

/-- Whether a path names a part of a file, such as a track or a cut, which is not served
as a plain file. -/
def namesPart (path : String) : Bool :=
  containsText path "?track=" || containsText path "&track=" || containsText path "edl="

/-- The address of a file, if it is exported. -/
def localToExternal? (t : ExportTable) (canonical : Canonical) (path : String) :
    Option String := do
  if namesPart path then none
  let root ← t.rootUri
  if !t.isExported canonical path then none
  let dir ← t.dirOf? path
  let rest := (afterPrefix? dir path).getD ""
  some (root ++ externalPath dir ++ String.ofList (Percent.encode rest.toList))

end ExportTable

end Mediatheque
