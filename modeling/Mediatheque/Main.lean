import Mediatheque.CommandLine.Run
import Mediatheque.Disk.Standard
import Mediatheque.Json.Printer
import Mediatheque.Message.Json

/-!
# The program

The outer layer: it takes a picture of the files that an invocation can touch, carries
the invocation out on that picture, and makes the changes on the real disk. The lock
file of the database is held meanwhile.
-/

namespace Mediatheque

namespace Main

/-- The number that the operating system has for reading a directory as a file. -/
def isDirectoryCode : UInt32 := 21

/-- Takes a file or a directory into the picture. -/
def take (d : Disk) (path : String) : IO Disk := do
  match ← (IO.FS.readFile path).toBaseIO with
  | .ok text => return d.addFile path text
  | .error (.inappropriateType _ code _) =>
    return if code = isDirectoryCode then d.addFile (path ++ "/") "" else d
  | .error _ => return d

/-- A stand-in for what is below a directory. -/
def standIn (dir : String) : String := Path.join dir "stand-in"

/-- The files and directories that an invocation can touch. -/
def picture (dir : String) (config : Option String) : IO Disk := do
  let thumbnails := Path.thumbnailsDir dir
  let paths := [dir, Path.configFile dir, Path.lockFile dir, Path.cacheDir dir, thumbnails] ++
    config.toList
  let d ← paths.foldlM take Disk.standard
  return if d.isDir thumbnails then d.addFile (standIn thumbnails) "" else d

/-- Makes the changes on the real disk. -/
def apply (before after : Disk) (dir : String) : IO Unit := do
  let thumbnails := Path.thumbnailsDir dir
  if before.isPresent (standIn thumbnails) && !after.isPresent (standIn thumbnails) then
    IO.FS.removeDirAll thumbnails
    IO.FS.createDirAll thumbnails
  for path in [dir, Path.cacheDir dir, thumbnails] do
    if after.isDir path && !before.isDir path then IO.FS.createDirAll path
  for path in [Path.lockFile dir, Path.configFile dir] do
    match after.read path, before.read path with
    | .ok new, .ok old => if new ≠ old then IO.FS.writeFile path new
    | .ok new, .error _ => IO.FS.writeFile path new
    | .error _, _ => pure ()

/-- A directory below the home directory, unless the environment names another. -/
def userDir (variable_ below : String) : IO String := do
  match ← IO.getEnv variable_ with
  | some dir => if startsWith dir "/" then return dir
  | none => pure ()
  match ← IO.getEnv "HOME" with
  | some home => return Path.join home below
  | none => return "."

/-- What the program finds around it. -/
def surroundings : IO Surroundings := do
  let config := Path.join (← userDir "XDG_CONFIG_HOME" ".config") "medialib/config.toml"
  let userSettings := (← (IO.FS.readFile config).toBaseIO).toOption
  return ⟨userSettings, ← userDir "XDG_DATA_HOME" ".local/share"⟩

/-- Whether another process holds the lock of a directory; if not this one does as long as
it keeps the handle. -/
def lock (dir : String) : IO (Option IO.FS.Handle × Bool) := do
  match ← (IO.FS.Handle.mk (Path.lockFile dir) .append).toBaseIO with
  | .error _ => return (none, false)
  | .ok handle =>
    let held ← handle.tryLock
    return (some handle, !held)

/-- Carries out an invocation on the real disk. -/
def carryOut (i : Invocation) : IO (Except RunError (List Event)) := do
  let s ← surroundings
  let extra ← i.config.elim (pure Disk.standard) (take Disk.standard)
  match i.settings s extra with
  | .error e => return .error e
  | .ok settings =>
    let dir := Path.databaseDir (i.databaseOptions s settings extra).baseDir
    let before ← picture dir i.config
    let (handle, busy) ← if before.isDir dir then lock dir else pure (none, false)
    let machine : Machine := { disk := before, locked := if busy then [dir] else [] }
    let (answers, m) := i.run s machine
    apply before m.disk dir
    if let some handle := handle then handle.unlock
    return answers

def usageText : String :=
  "Usage: medialib [--base-dir DIR] [--create] [--config FILE] [--timeout SECONDS] [-v] " ++
  "COMMAND\n\n" ++
  "Commands:\n" ++
  "  browse ID [--start N] [--count N]  list the children of a container\n" ++
  "  object ID                          show one object\n" ++
  "  rescan                             rescan every source and wait until done\n" ++
  "  set CONTEXT NAME VALUE             change a setting"

end Main

end Mediatheque

open Mediatheque in
/-- Prints the events that answer, and tells by the exit code whether there was a result. -/
def main (arguments : List String) : IO UInt32 := do
  match Invocation.read arguments with
  | .error e =>
    (if e = .help then IO.println else IO.eprintln) Main.usageText
    return if e = .help then 0 else 2
  | .ok i =>
    match ← Main.carryOut i with
    | .error e =>
      IO.eprintln ("medialib: " ++ e.message)
      return 1
    | .ok events =>
      for e in events do
        IO.println e.toJson.prettyText
      return if events.any (fun | .notFound .. => true | _ => false) then 1 else 0
