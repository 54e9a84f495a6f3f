import Mediatheque.Export.Table
import Mediatheque.Proofs.Disk.Course

/-!
# Where the addresses of the export table lead

What an address has behind a directory's digest is put behind the directory as it stands
there, and the access check takes the path for one in the directory by its start alone. So the
check refuses only what is restricted (`isExported_append`), and `..` in an address leads out
of the directory:

* `externalToLocal?_eq_some_iff`: which file an address is for;
* `slashed_performAll`: directories of the table end with a slash, however it came about;
* `confined_iff_contains`: the file is in an exported directory if the address leads into one
  from its own, as one without `..` does.
-/

namespace Mediatheque

namespace ExportTable

/-! ## Changes of a table -/

/-- A change of the export table. -/
inductive Change where
  | setRootUri (uri : String)
  | setParameter (name : String) (value : ParameterValue)
  | add (path : String)
  | delete (path : String)

/-- The table after a change. -/
def perform (t : ExportTable) : Change → ExportTable
  | .setRootUri uri => t.setRootUri uri
  | .setParameter name value => (t.setParameter name value).1
  | .add path => t.add path
  | .delete path => t.delete path

/-- The table after several changes. -/
def performAll (t : ExportTable) (changes : List Change) : ExportTable :=
  changes.foldl perform t

/-- The directories of a table end with a slash. -/
def Slashed (t : ExportTable) : Prop := ∀ dir ∈ t.dirs, ∃ path, dir = path ++ "/"

theorem exists_slashed (path : String) : ∃ start, slashed path = start ++ "/" := by
  unfold slashed
  split
  · exact endsWith_iff.1 ‹_›
  · exact ⟨path, rfl⟩

/-- Settings leave the directories of the table alone. -/
theorem dirs_setParameter (t : ExportTable) (name : String) (value : ParameterValue) :
    (t.setParameter name value).1.dirs = t.dirs := by
  unfold setParameter
  split <;> rfl

theorem slashed_perform {t : ExportTable} (h : t.Slashed) (change : Change) :
    (t.perform change).Slashed := by
  cases change with
  | setRootUri uri => exact h
  | setParameter name value =>
    intro dir hdir
    rw [perform, dirs_setParameter] at hdir
    exact h dir hdir
  | add path =>
    intro dir hdir
    rw [perform, add] at hdir
    split at hdir
    · exact h dir hdir
    · rcases List.mem_append.1 hdir with hold | hnew
      · exact h dir hold
      · rw [List.mem_singleton.1 hnew]
        exact exists_slashed path
  | delete path =>
    intro dir hdir
    exact h dir (List.mem_of_mem_eraseP hdir)

theorem slashed_performAll {t : ExportTable} (h : t.Slashed) (changes : List Change) :
    (t.performAll changes).Slashed := by
  induction changes generalizing t with
  | nil => exact h
  | cons change changes ih => exact ih (slashed_perform h change)

theorem slashed_empty : empty.Slashed := fun _ hdir => absurd hdir List.not_mem_nil

/-! ## The access check -/

/-- A path behind a directory of the table counts as one in a directory, whatever it is. -/
theorem isSome_dirOf?_append {t : ExportTable} {dir : String} (h : dir ∈ t.dirs) (rest : String) :
    (t.dirOf? (dir ++ rest)).isSome = true := by
  have hcovers : covers dir (dir ++ rest) = true := by
    rw [covers, startsWith_iff.2 ⟨rest, rfl⟩, Bool.true_or]
  exact List.find?_isSome.2 ⟨dir, h, hcovers⟩

/-- The access check refuses a path behind a directory of the table only if exporting is off or
a spelling is restricted. -/
theorem isExported_append {t : ExportTable} {dir : String} (h : dir ∈ t.dirs)
    (canonical : Canonical) (rest : String) :
    t.isExported canonical (dir ++ rest) = true ↔
      t.enabled = true ∧ ∀ spelling ∈ (dir ++ rest) :: (canonical (dir ++ rest)).toList,
        isBelow t.restricted spelling = false := by
  have hallowed : ((dir ++ rest) :: (canonical (dir ++ rest)).toList).any
      (fun p => (t.dirOf? p).isSome || isBelow t.allowed p) = true := by
    rw [List.any_cons, isSome_dirOf?_append h, Bool.true_or, Bool.true_or]
  simp only [isExported, hallowed, Bool.and_true, Bool.and_eq_true, Bool.not_eq_true',
    List.any_eq_false, Bool.not_eq_true]

/-- An address is for the file that its directory and the rest of it spell. -/
theorem externalToLocal?_eq_some_iff {t : ExportTable} {canonical : Canonical}
    {path file : String} :
    t.externalToLocal? canonical path = some file ↔
      ∃ dir rest, t.dirs.find? (fun dir => startsWith path (externalPath dir)) = some dir ∧
        path = externalPath dir ++ rest ∧ file = dir ++ rest ∧ t.enabled = true ∧
        ∀ spelling ∈ file :: (canonical file).toList, isBelow t.restricted spelling = false := by
  simp only [externalToLocal?, Option.bind_eq_bind, Option.bind_eq_some_iff,
    afterPrefix?_eq_some_iff, Option.ite_none_right_eq_some, Option.some.injEq]
  constructor
  · rintro ⟨dir, hfind, rest, hpath, hexported, rfl⟩
    have hmem := List.mem_of_find?_eq_some hfind
    exact ⟨dir, rest, hfind, hpath, rfl, (isExported_append hmem canonical rest).1 hexported⟩
  · rintro ⟨dir, rest, hfind, hpath, rfl, hgranted⟩
    have hmem := List.mem_of_find?_eq_some hfind
    exact ⟨dir, hfind, rest, hpath, (isExported_append hmem canonical rest).2 hgranted, rfl⟩

/-! ## Confinement -/

/-- A file is in one of the exported directories, by what its path says. -/
def Confined (t : ExportTable) (file : String) : Prop :=
  ∃ listed ∈ t.dirs ++ t.allowed, Path.Within listed file

/-- The file of an address is in an exported directory if the rest of the address leads into
one from the directory that it names, and only then. -/
theorem confined_iff_contains {t : ExportTable} {changes : List Change}
    (ht : empty.performAll changes = t) {canonical : Canonical} {path file : String}
    (h : t.externalToLocal? canonical path = some file) :
    ∃ dir ∈ t.dirs, ∃ rest, path = externalPath dir ++ rest ∧ file = dir ++ rest ∧
      (t.Confined file ↔ ∃ listed ∈ t.dirs ++ t.allowed, (Path.place listed).Contains
        ((Path.place dir).follow (Path.course (Path.components rest)))) ∧
      (".." ∉ Path.components rest → t.Confined file) := by
  obtain ⟨dir, rest, hfind, hpath, rfl, -⟩ := externalToLocal?_eq_some_iff.1 h
  have hmem := List.mem_of_find?_eq_some hfind
  have hslashed : t.Slashed := by
    rw [← ht]
    exact slashed_performAll slashed_empty changes
  obtain ⟨start, hstart⟩ := hslashed dir hmem
  have hplace : Path.place (dir ++ rest) =
      (Path.place dir).follow (Path.course (Path.components rest)) := by
    rw [hstart, Path.place_append]
  refine ⟨dir, hmem, rest, hpath, rfl, ?_, fun hdots => ?_⟩
  · simp only [Confined, Path.Within, hplace]
  · refine ⟨dir, List.mem_append_left _ hmem, ?_⟩
    rw [hstart]
    exact Path.within_append_of_not_mem start hdots

/-! ## A table with one directory -/

/-- The table that exports one directory and restricts nothing. -/
def sharing (dir : String) : List Change :=
  [.setParameter "export_media_dirs" (.bool true), .add dir]

theorem dirs_sharing (dir : String) : (empty.performAll (sharing dir)).dirs = [slashed dir] := rfl

/-- A table that restricts nothing has a file for any path behind its directory. -/
theorem externalToLocal?_sharing (canonical : Canonical) (dir rest : String) :
    (empty.performAll (sharing dir)).externalToLocal? canonical
      (externalPath (slashed dir) ++ rest) = some (slashed dir ++ rest) := by
  refine externalToLocal?_eq_some_iff.2 ⟨slashed dir, rest, ?_, rfl, rfl, rfl, fun _ _ => rfl⟩
  rw [dirs_sharing]
  exact List.find?_cons_of_pos (startsWith_iff.2 ⟨rest, rfl⟩)

/-- An address that goes up no further than it has gone down stays in the directory. -/
theorem confined_up_and_down :
    (empty.performAll (sharing "/music")).Confined "/music/live/../studio/song.mp3" := by
  have h := externalToLocal?_sharing (fun _ => none) "/music" "live/../studio/song.mp3"
  obtain ⟨dir, hdir, rest, -, hfile, hiff, -⟩ := confined_iff_contains rfl h
  rw [dirs_sharing] at hdir
  rw [List.mem_singleton.1 hdir] at hfile hiff
  have hrest : "live/../studio/song.mp3" = rest := (String.append_right_inj _).1 hfile
  refine hiff.2 ⟨"/music/", by decide, ?_⟩
  rw [← hrest]
  decide

/-- An address leads out of the only exported directory. -/
theorem not_confined_above :
    ¬ ∀ changes canonical path file,
      (empty.performAll changes).externalToLocal? canonical path = some file →
        (empty.performAll changes).Confined file := by
  intro h
  have hfile := externalToLocal?_sharing (fun _ => some "/etc/passwd") "/usr" "../etc/passwd"
  obtain ⟨listed, hlisted, hwithin⟩ := h _ _ _ _ hfile
  have hdir : listed = "/usr/" := List.mem_singleton.1 hlisted
  rw [hdir] at hwithin
  revert hwithin
  unfold Path.Within
  decide

end ExportTable

end Mediatheque
