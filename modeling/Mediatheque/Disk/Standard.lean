import Mediatheque.Disk.Basic

/-!
# A freshly installed system

* `Disk.standard`: the files and directories that every system has;
* `Disk.addFiles`: more of them.
-/

namespace Mediatheque

namespace Disk

/-- Adds a file with the directories that it needs; a path with a slash at its end is that
of a directory. -/
def addFile (d : Disk) (path text : String) : Disk :=
  let dir := String.ofList (path.toList.reverse.dropWhile (· ≠ '/')).reverse
  let d := (d.createDirs dir).toOption.getD d
  if endsWith path "/" then d else (d.write path text).2

/-- Adds files below a directory. -/
def addFiles (d : Disk) (dir : String) (files : List (String × String)) : Disk :=
  files.foldl (fun d (name, text) => d.addFile (Path.join dir name) text) d

/-- The files and directories that every system has. -/
def standard : Disk :=
  addFiles {} "/" (["boot/", "etc/passwd", "etc/group", "etc/hosts", "etc/hostname", "dev/null",
    "dev/zero", "home/", "media/", "mnt/", "opt/", "proc/", "root/", "run/", "srv/", "sys/", "tmp/",
    "usr/bin/", "usr/lib/", "usr/local/", "usr/share/", "var/"].map (·, ""))

end Disk

end Mediatheque
