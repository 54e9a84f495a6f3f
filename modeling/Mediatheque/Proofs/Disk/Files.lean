import Mathlib.Logic.Relation
import Mediatheque.Disk.Basic
import Mediatheque.Fault

/-!
# Files that are read again

A path is resolved step by step, and each step starts in a directory. So it leads to the same
place as long as the directories on the way stay (`KeepsDirs.place`), and a file that is written
is read as it was written (`read_write`). A disk on which directories are created where they are
missing grows (`grows_createDirs`): it keeps all its files (`Grows.keeps`, `Keeps.read`), and what
is new of them is empty (`Grows.file`).
-/

namespace Mediatheque

namespace Disk

variable {d e f : Disk}

/-- The directories of a disk are directories of another. -/
def KeepsDirs (d e : Disk) : Prop :=
  ∀ place, d.nodeAt? place = some .directory → e.nodeAt? place = some .directory

/-- All that stands on a disk stands on another. -/
def Keeps (d e : Disk) : Prop :=
  ∀ place node, d.nodeAt? place = some node → e.nodeAt? place = some node

theorem Keeps.refl (d : Disk) : Keeps d d := fun _ _ h => h

theorem Keeps.trans (hde : Keeps d e) (hef : Keeps e f) : Keeps d f :=
  fun place node h => hef place node (hde place node h)

theorem Keeps.keepsDirs (h : Keeps d e) : KeepsDirs d e := fun place => h place .directory

/-! ## Paths -/

/-- A step starts in a directory. -/
theorem KeepsDirs.step (h : KeepsDirs d e) {place next : List String} {component : String}
    (hs : d.step place component = .ok next) : e.step place component = .ok next := by
  rw [Disk.step] at hs
  split at hs
  · cases hs
  · cases hs
  · rename_i hn
    rw [Disk.step, h place hn]
    exact hs

theorem KeepsDirs.foldlM_step (h : KeepsDirs d e) {components start place : List String}
    (hs : components.foldlM d.step start = .ok place) :
    components.foldlM e.step start = .ok place := by
  induction components generalizing start with
  | nil => exact hs
  | cons component rest ih =>
    rw [List.foldlM_cons, Fault.bind_eq_ok_iff] at hs ⊢
    obtain ⟨next, hnext, hrest⟩ := hs
    exact ⟨next, h.step hnext, ih hrest⟩

/-- A path leads where it led if the directories stay. -/
theorem KeepsDirs.place (h : KeepsDirs d e) {path : String} {place : List String}
    (hp : d.place path = .ok place) : e.place path = .ok place := by
  rw [Disk.place] at hp ⊢
  split at hp
  · cases hp
  · rename_i hempty
    rw [if_neg hempty]
    exact h.foldlM_step hp

/-- The text of a file is what stands at the place of its path. -/
theorem read_eq_ok_iff {path text : String} :
    d.read path = .ok text ↔
      ∃ place, d.place path = .ok place ∧ d.nodeAt? place = some (.file text) := by
  simp only [read, find, Fault.bind_eq_ok_iff]
  constructor
  · rintro ⟨node, ⟨place, hp, hn⟩, hr⟩
    split at hn
    · rename_i found hfound
      cases hn
      cases node with
      | file content =>
        cases hr
        exact ⟨place, hp, hfound⟩
      | directory => cases hr
    · cases hn
  · rintro ⟨place, hp, hn⟩
    refine ⟨.file text, ⟨place, hp, ?_⟩, rfl⟩
    rw [hn]

theorem Keeps.read (h : Keeps d e) {path text : String} (hr : d.read path = .ok text) :
    e.read path = .ok text := by
  obtain ⟨place, hp, hn⟩ := read_eq_ok_iff.1 hr
  exact read_eq_ok_iff.2 ⟨place, h.keepsDirs.place hp, h place _ hn⟩

/-! ## Nodes that are put -/

theorem nodeAt?_put (d : Disk) (place : List String) (node : DiskNode) (other : List String) :
    (d.put place node).nodeAt? other =
      if other.isEmpty then some .directory
      else if location other = location place then some node
      else d.nodes.get? (location other) := by
  rw [nodeAt?, put, Dictionary.get?_insert]

/-- A node that is put where there is none takes nothing away. -/
theorem keeps_put {place : List String} (h : d.nodeAt? place = none) (node : DiskNode) :
    Keeps d (d.put place node) := by
  intro other found hfound
  rw [nodeAt?] at h hfound
  rw [nodeAt?_put]
  split at h
  · cases h
  · split at hfound
    · rename_i hempty
      rw [if_pos hempty, hfound]
    · rename_i hempty
      rw [if_neg hempty, if_neg, hfound]
      intro hsame
      rw [hsame, h] at hfound
      cases hfound

/-- A file can be put only where there is no directory, the root being one. -/
theorem not_directory_of_checkFile {place : List String} (h : d.checkFile place = .ok ()) :
    d.nodeAt? place ≠ some .directory := by
  intro hn
  rw [checkFile, hn] at h
  cases h

/-- A file that takes the place of no directory leaves all directories. -/
theorem keepsDirs_put {place : List String} (h : d.nodeAt? place ≠ some .directory)
    (node : DiskNode) : KeepsDirs d (d.put place node) := by
  intro other hother
  rw [nodeAt?_put]
  rw [nodeAt?] at h hother
  split at h
  · exact absurd rfl h
  · split at hother
    · rename_i hempty
      rw [if_pos hempty]
    · rename_i hempty
      rw [if_neg hempty, if_neg, hother]
      intro hsame
      exact h (hsame ▸ hother)

/-! ## Writes -/

/-- A file is read as it was written. -/
theorem read_write {path text : String} (h : d.write path text = (.ok (), e)) :
    e.read path = .ok text := by
  rw [write] at h
  split at h
  · cases h
  · split at h
    · cases h
    · rename_i place hp
      split at h
      · cases h
      · rename_i hcheck
        cases h
        have hdir := not_directory_of_checkFile hcheck
        refine read_eq_ok_iff.2 ⟨place, (keepsDirs_put hdir (.file text)).place hp, ?_⟩
        rw [nodeAt?_put, if_neg (fun hempty => hdir (if_pos hempty)), if_pos rfl]

/-- A write uses up the first of the errors to come. -/
theorem writeErrors_write (d : Disk) (path text : String) :
    (d.write path text).2.writeErrors = d.writeErrors.tail := by
  rw [write]
  split
  · rfl
  · split
    · rfl
    · split <;> rfl

/-- A write to a file that can be read succeeds, unless it meets an error of its own. -/
theorem write_of_read {path old : String} (text : String) (hread : d.read path = .ok old)
    (herrors : ∀ e ∈ d.writeErrors, e = none) :
    ∃ e, d.write path text = (.ok (), e) ∧ ∀ error ∈ e.writeErrors, error = none := by
  obtain ⟨place, hplace, hfile⟩ := read_eq_ok_iff.1 hread
  have hhead : d.writeErrors.head?.join = none := by
    cases herrorsEq : d.writeErrors with
    | nil => rfl
    | cons error rest => exact herrors error (by rw [herrorsEq]; exact List.mem_cons_self)
  have hcheck : d.checkFile place = .ok () := by rw [checkFile, hfile]
  refine ⟨{ d with writeErrors := d.writeErrors.tail }.put place (.file text), ?_,
    fun error herror => herrors error (List.mem_of_mem_tail herror)⟩
  rw [write, hhead]
  dsimp only
  rw [hplace]
  dsimp only
  rw [hcheck]

/-! ## Additions -/

/-- Directories and empty files have been put where there was nothing. -/
def Grows : Disk → Disk → Prop :=
  Relation.ReflTransGen fun d e => ∃ place node, d.nodeAt? place = none ∧
    (node = .directory ∨ node = .file "") ∧ e = d.put place node

theorem Grows.keeps (h : Grows d e) : Keeps d e := by
  induction h with
  | refl => exact .refl d
  | tail _ hput ih =>
    obtain ⟨place, node, hnone, -, rfl⟩ := hput
    exact ih.trans (keeps_put hnone node)

theorem Grows.writeErrors (h : Grows d e) : e.writeErrors = d.writeErrors := by
  induction h with
  | refl => rfl
  | tail _ hput ih =>
    obtain ⟨place, node, -, -, rfl⟩ := hput
    exact ih

/-- A file of a disk that has grown was there before, or is empty. -/
theorem Grows.file (h : Grows d e) {place : List String} {text : String}
    (hfile : e.nodeAt? place = some (.file text)) :
    d.nodeAt? place = some (.file text) ∨ text = "" := by
  induction h with
  | refl => exact .inl hfile
  | tail _ hput ih =>
    obtain ⟨other, node, -, hnode, rfl⟩ := hput
    rw [nodeAt?_put] at hfile
    split at hfile
    · cases hfile
    · rename_i hplace
      split at hfile
      · rcases hnode with rfl | rfl <;> cases hfile
        exact .inr rfl
      · exact ih ((if_neg hplace).trans hfile)

theorem grows_ite_put {place : List String} {node : DiskNode}
    (hnode : node = .directory ∨ node = .file "") :
    Grows d (if (d.nodeAt? place).isSome then d else d.put place node) := by
  split
  · exact .refl
  · rename_i hnone
    exact .single ⟨place, node, Option.not_isSome_iff_eq_none.1 hnone, hnode, rfl⟩

theorem grows_touch {path : String} (h : d.touch path = .ok e) : Grows d e := by
  simp only [touch, Fault.bind_eq_ok_iff] at h
  obtain ⟨place, -, -, -, h⟩ := h
  cases h
  exact grows_ite_put (.inr rfl)

theorem grows_stepCreating {place next : List String} {component : String}
    (h : d.stepCreating place component = .ok (e, next)) : Grows d e := by
  simp only [stepCreating, Fault.bind_eq_ok_iff] at h
  obtain ⟨target, -, h⟩ := h
  cases h
  split
  · rename_i hnone
    exact .single ⟨next, .directory, Option.isNone_iff_eq_none.1 hnone, .inl rfl, rfl⟩
  · exact .refl

theorem grows_foldlM_stepCreating {components start place : List String}
    (h : components.foldlM (fun (d, place) component => d.stepCreating place component)
      (d, start) = .ok (e, place)) : Grows d e := by
  induction components generalizing d start with
  | nil =>
    cases h
    exact .refl
  | cons component rest ih =>
    rw [List.foldlM_cons, Fault.bind_eq_ok_iff] at h
    obtain ⟨⟨between, next⟩, hstep, hrest⟩ := h
    exact (grows_stepCreating hstep).trans (ih hrest)

/-- Directories are created only where there is nothing. -/
theorem grows_createDirs {path : String} (h : d.createDirs path = .ok e) : Grows d e := by
  rw [createDirs] at h
  split at h
  · cases h
    exact .refl
  · obtain ⟨⟨reached, place⟩, hsteps, h⟩ := Fault.bind_eq_ok_iff.1 h
    dsimp only at h
    split at h
    · cases h
      exact grows_foldlM_stepCreating hsteps
    · cases h

end Disk

end Mediatheque
