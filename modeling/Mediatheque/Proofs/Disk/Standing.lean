import Mediatheque.Proofs.Disk.Clearing

/-!
# What stays where it stands

A write replaces the text of a file, and neither takes a file away nor a directory
(`retains_write`). So what paths lead to stays what it is (`Retains.isDir`, `Retains.isFile`).
A directory that is there is not created again, nor is a file (`createDirs_of_isDir`,
`touch_of_isFile`). The directory of a database and its lock stay when the images in it are
cleared, as long as the path of the directory goes down only (`sparing_databaseDir`).
-/

namespace Mediatheque

namespace Disk

variable {d e f : Disk} {path : String}

/-- A path leads to a file. -/
def IsFile (d : Disk) (path : String) : Prop := ∃ text, d.read path = .ok text

theorem isDir_iff :
    d.isDir path = true ↔
      ∃ place, d.place path = .ok place ∧ d.nodeAt? place = some .directory := by
  rw [isDir, find]
  cases d.place path with
  | error e =>
    refine iff_of_false Bool.false_ne_true ?_
    rintro ⟨place, hplace, -⟩
    cases hplace
  | ok place =>
    simp only [bind, Except.bind, Except.ok.injEq, exists_eq_left']
    cases d.nodeAt? place with
    | none => simp
    | some node => cases node <;> simp

/-- Whatever a path leads to is present. -/
theorem isPresent_of_isDir (h : d.isDir path = true) : d.isPresent path = true := by
  obtain ⟨place, hplace, hdir⟩ := isDir_iff.1 h
  rw [isPresent, find, hplace]
  simp only [bind, Except.bind, hdir]
  rfl

/-! ## Disks that retain -/

/-- The directories of a disk are directories of another, and its files are files there. -/
structure Retains (d e : Disk) : Prop where
  dirs : KeepsDirs d e
  files : ∀ place text, d.nodeAt? place = some (.file text) →
    ∃ text', e.nodeAt? place = some (.file text')

theorem Retains.refl (d : Disk) : Retains d d := ⟨fun _ h => h, fun _ text h => ⟨text, h⟩⟩

theorem Retains.trans (hde : Retains d e) (hef : Retains e f) : Retains d f := by
  refine ⟨fun place h => hef.dirs place (hde.dirs place h), fun place text h => ?_⟩
  obtain ⟨text', h'⟩ := hde.files place text h
  exact hef.files place text' h'

theorem Keeps.retains (h : Keeps d e) : Retains d e :=
  ⟨h.keepsDirs, fun place text hfile => ⟨text, h place _ hfile⟩⟩

theorem Retains.isDir (h : Retains d e) (hdir : d.isDir path = true) : e.isDir path = true := by
  obtain ⟨place, hplace, hnode⟩ := isDir_iff.1 hdir
  exact isDir_iff.2 ⟨place, h.dirs.place hplace, h.dirs place hnode⟩

theorem Retains.isFile (h : Retains d e) (hfile : d.IsFile path) : e.IsFile path := by
  obtain ⟨text, hread⟩ := hfile
  obtain ⟨place, hplace, hnode⟩ := read_eq_ok_iff.1 hread
  obtain ⟨text', hnode'⟩ := h.files place text hnode
  exact ⟨text', read_eq_ok_iff.2 ⟨place, h.dirs.place hplace, hnode'⟩⟩

theorem retains_put {place : List String} (h : d.nodeAt? place ≠ some .directory) (text : String) :
    Retains d (d.put place (.file text)) := by
  refine ⟨keepsDirs_put h _, fun other old hold => ?_⟩
  rw [nodeAt?_put]
  rw [nodeAt?] at hold
  split at hold
  · cases hold
  · rename_i hempty
    rw [if_neg hempty]
    split
    · exact ⟨text, rfl⟩
    · exact ⟨old, hold⟩

theorem retains_write (d : Disk) (path text : String) : Retains d (d.write path text).2 := by
  -- The errors to come have no part in what stands where.
  have hrest : Retains d { d with writeErrors := d.writeErrors.tail } :=
    ⟨fun _ h => h, fun _ old h => ⟨old, h⟩⟩
  rw [write]
  split
  · exact hrest
  · split
    · exact hrest
    · split
      · exact hrest
      · rename_i place _ hcheck
        exact hrest.trans (retains_put (d := { d with writeErrors := d.writeErrors.tail })
          (not_directory_of_checkFile hcheck) text)

/-! ## Creating what is there -/

/-- A way to a directory starts in one. -/
theorem directory_of_foldlM_step {components start place : List String}
    (h : components.foldlM d.step start = .ok place) (hplace : d.nodeAt? place = some .directory) :
    d.nodeAt? start = some .directory := by
  cases components with
  | nil =>
    cases h
    exact hplace
  | cons component rest =>
    rw [List.foldlM_cons, Fault.bind_eq_ok_iff] at h
    obtain ⟨next, hnext, -⟩ := h
    rw [step] at hnext
    split at hnext
    · cases hnext
    · cases hnext
    · assumption

theorem foldlM_stepCreating_of_directory {components start place : List String}
    (h : components.foldlM d.step start = .ok place) (hplace : d.nodeAt? place = some .directory) :
    components.foldlM (fun (d, place) component => d.stepCreating place component) (d, start) =
      .ok (d, place) := by
  induction components generalizing start with
  | nil =>
    cases h
    rfl
  | cons component rest ih =>
    rw [List.foldlM_cons, Fault.bind_eq_ok_iff] at h
    obtain ⟨next, hnext, hrest⟩ := h
    have hthere := directory_of_foldlM_step hrest hplace
    have hstep : d.stepCreating start component = .ok (d, next) := by
      simp only [stepCreating, hnext, bind, Except.bind, hthere]
      rfl
    rw [List.foldlM_cons]
    exact Fault.bind_eq_ok_iff.2 ⟨(d, next), hstep, ih hrest⟩

/-- A directory that is there is not created. -/
theorem createDirs_of_isDir (h : d.isDir path = true) : d.createDirs path = .ok d := by
  obtain ⟨place, hplace, hnode⟩ := isDir_iff.1 h
  rw [Disk.place] at hplace
  split at hplace
  · cases hplace
  · rename_i hempty
    rw [createDirs, if_neg hempty, foldlM_stepCreating_of_directory hplace hnode]
    simp only [bind, Except.bind, hnode]

theorem foldlM_step_of_stepCreating {components start place : List String}
    (h : components.foldlM (fun (d, place) component => d.stepCreating place component)
      (d, start) = .ok (e, place)) : components.foldlM e.step start = .ok place := by
  induction components generalizing d start with
  | nil =>
    cases h
    rfl
  | cons component rest ih =>
    rw [List.foldlM_cons, Fault.bind_eq_ok_iff] at h
    obtain ⟨⟨between, next⟩, hstep, hrest⟩ := h
    have hgrows : Grows d e := (grows_stepCreating hstep).trans (grows_foldlM_stepCreating hrest)
    obtain ⟨target, htarget, hdone⟩ := Fault.bind_eq_ok_iff.1 hstep
    cases hdone
    rw [List.foldlM_cons, hgrows.keeps.keepsDirs.step htarget]
    exact ih hrest

/-- A directory that has been created is there. -/
theorem isDir_of_createDirs (h : d.createDirs path = .ok e) (hpath : path.isEmpty = false) :
    e.isDir path = true := by
  rw [createDirs, hpath, if_neg Bool.false_ne_true] at h
  obtain ⟨⟨reached, place⟩, hsteps, h⟩ := Fault.bind_eq_ok_iff.1 h
  dsimp only at h
  split at h
  · rename_i hnode
    cases h
    refine isDir_iff.2 ⟨place, ?_, hnode⟩
    rw [Disk.place, hpath, if_neg Bool.false_ne_true]
    exact foldlM_step_of_stepCreating hsteps
  · cases h

/-- A file that is there is not created. -/
theorem touch_of_isFile (h : d.IsFile path) : d.touch path = .ok d := by
  obtain ⟨text, hread⟩ := h
  obtain ⟨place, hplace, hnode⟩ := read_eq_ok_iff.1 hread
  have hcheck : d.checkFile place = .ok () := by rw [checkFile, hnode]
  simp only [touch, hplace, hcheck, bind, Except.bind, hnode]
  rfl

/-- A file that has been created is there. -/
theorem isFile_of_touch (h : d.touch path = .ok e) : e.IsFile path := by
  have hkeeps := (grows_touch h).keeps
  simp only [touch, Fault.bind_eq_ok_iff] at h
  obtain ⟨place, hplace, ⟨⟩, hcheck, h⟩ := h
  have hdir := not_directory_of_checkFile hcheck
  obtain ⟨text, htext⟩ : ∃ text, e.nodeAt? place = some (.file text) := by
    cases hnode : d.nodeAt? place with
    | none =>
      rw [hnode] at h
      cases h
      refine ⟨"", ?_⟩
      show (d.put place (.file "")).nodeAt? place = _
      rw [nodeAt?_put, if_neg (fun hempty => hdir (if_pos hempty)), if_pos rfl]
    | some node =>
      cases node with
      | file text => exact ⟨text, hkeeps place _ hnode⟩
      | directory => exact absurd hnode hdir
  exact ⟨text, read_eq_ok_iff.2 ⟨place, hkeeps.keepsDirs.place hplace, htext⟩⟩

/-! ## The directory of a database -/

/-- The directory of a database and its lock stay where they are. -/
structure Sustains (dir : String) (d e : Disk) : Prop where
  isDir : d.isDir dir = true → e.isDir dir = true
  lock : d.IsFile (Path.lockFile dir) → e.IsFile (Path.lockFile dir)

theorem Sustains.refl (dir : String) (d : Disk) : Sustains dir d d := ⟨id, id⟩

theorem Sustains.trans {dir : String} (hde : Sustains dir d e) (hef : Sustains dir e f) :
    Sustains dir d f :=
  ⟨fun h => hef.isDir (hde.isDir h), fun h => hef.lock (hde.lock h)⟩

theorem Retains.sustains (h : Retains d e) (dir : String) : Sustains dir d e :=
  ⟨h.isDir, h.isFile⟩

/-- Clearing the images of a database leaves its directory and its lock. -/
def Sparing (dir : String) : Prop :=
  ∀ d : Disk, Sustains dir d (d.clearDir (Path.thumbnailsDir dir))

/-- A directory stays when one in it is cleared, as long as its path goes down only. -/
theorem isDir_clearDir {dir inner name : String} (hinner : Path.components inner =
      Path.components dir ++ [name]) (hname : name ∉ ["", ".", ".."])
    (hup : ".." ∉ Path.components dir) (h : d.isDir dir = true) :
    (d.clearDir inner).isDir dir = true := by
  rw [clearDir]
  split
  · rename_i cleared hcleared
    split
    · obtain ⟨above, habove, rfl⟩ := place_append_name hinner hname hcleared
      obtain ⟨place, hplace, hnode⟩ := isDir_iff.1 h
      have hempty : dir.isEmpty = false := by
        cases hd : dir.isEmpty with
        | false => rfl
        | true =>
          rw [Disk.place, hd, if_pos rfl] at hplace
          cases hplace
      rw [Disk.place, hempty, if_neg Bool.false_ne_true] at hplace
      obtain rfl : place = above := Except.ok.inj (hplace.symm.trans habove)
      have hsame (stays : List String) (hstays : stays <+: place) :
          (d.without (isBelow (location (place ++ [name])))).nodeAt? stays = d.nodeAt? stays := by
        have hbeside : stays <+: place ++ [""] := hstays.trans (List.prefix_append ..)
        exact nodeAt?_without d (isBelow_beside name (by simp) hbeside)
      refine isDir_iff.2 ⟨place, ?_, (hsame _ List.prefix_rfl).trans hnode⟩
      rw [Disk.place, hempty, if_neg Bool.false_ne_true]
      exact foldlM_step_of_prefix hup hplace hsame
    · exact h
  · exact h

end Disk

namespace Path

theorem exists_databaseDir (base : String) : ∃ start, databaseDir base = start ++ "medialib" := by
  rw [databaseDir, join_of_not_mem base (by decide)]
  split
  · exact ⟨base, rfl⟩
  · exact ⟨base ++ "/", rfl⟩

theorem isEmpty_databaseDir (base : String) : (databaseDir base).isEmpty = false := by
  obtain ⟨start, hstart⟩ := exists_databaseDir base
  rw [hstart, String.isEmpty_eq_false_iff]
  simp

theorem components_join_databaseDir (base name : String) (hname : '/' ∉ name.toList) :
    components (join (databaseDir base) name) = components (databaseDir base) ++ [name] := by
  have hend : ¬ endsWith (databaseDir base) "/" = true := by
    rw [endsWith_iff]
    rintro ⟨path, hpath⟩
    obtain ⟨start, hstart⟩ := exists_databaseDir base
    rw [hstart] at hpath
    have hlast := congrArg (fun s => s.toList.getLast?) hpath
    simp at hlast
  rw [join_of_not_mem _ hname, isEmpty_databaseDir, if_neg (by simpa using hend),
    components_append, components_of_not_mem hname]

end Path

/-- A path that goes down only does not lead through the images that are cleared. -/
theorem Disk.sparing_databaseDir {base : String}
    (hup : ".." ∉ Path.components (Path.databaseDir base)) :
    Disk.Sparing (Path.databaseDir base) := by
  have hthumbnails := Path.components_join_databaseDir base "thumbnails" (by decide)
  have hlock := Path.components_join_databaseDir base "lock" (by decide)
  refine fun d => ⟨Disk.isDir_clearDir hthumbnails (by decide) hup, ?_⟩
  rintro ⟨text, hread⟩
  exact ⟨text, Disk.read_clearDir hlock hthumbnails hup (by decide) (by decide) (by decide) hread⟩

end Mediatheque
