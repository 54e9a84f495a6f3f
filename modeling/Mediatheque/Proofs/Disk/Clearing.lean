import Mediatheque.Cache.DirectoryCache
import Mediatheque.Proofs.Disk.Course
import Mediatheque.Proofs.Disk.Files

/-!
# Files beside a directory that is cleared

A directory that is cleared loses what is below it, and nothing else (`nodeAt?_without`). A
path without `..` leads down only, so a file that stands beside the directory is read as before
(`read_clearDir`). In the directory of a database the settings file stands beside the cache of
images (`read_purge_thumbnails`).
-/

namespace Mediatheque

namespace Disk

/-! ## Where paths end -/

theorem down_add {d : Disk} {c : Path.Course} {next : List String} {component : String}
    (h : d.step c.down component = .ok next) : (c.add component).down = next := by
  rw [step] at h
  split at h
  · cases h
  · cases h
  · rw [Path.Course.add]
    split at h
    · rename_i hstay
      cases h
      rw [if_pos hstay]
    · rename_i hstay
      rw [if_neg hstay]
      split at h
      · rename_i hup
        cases h
        rw [if_pos hup]
        cases hdown : c.down with
        | nil => cases hroot : c.fromRoot <;> simp [hdown]
        | cons name names => rfl
      · rename_i hup
        cases h
        rw [if_neg hup]

theorem foldl_add_down {d : Disk} {components place : List String} {c : Path.Course}
    (h : components.foldlM d.step c.down = .ok place) :
    (components.foldl Path.Course.add c).down = place := by
  induction components generalizing c with
  | nil =>
    cases h
    rfl
  | cons component rest ih =>
    rw [List.foldlM_cons, Fault.bind_eq_ok_iff] at h
    obtain ⟨next, hnext, hrest⟩ := h
    rw [← down_add hnext] at hrest
    exact ih hrest

/-- A path that leads somewhere leads where it is written to. -/
theorem place_eq {d : Disk} {path : String} {place : List String} (h : d.place path = .ok place) :
    place = Path.resolveDots (Path.components path) := by
  rw [Disk.place] at h
  split at h
  · cases h
  · rw [← Path.down_course]
    exact (foldl_add_down (c := {}) h).symm

/-! ## Going down -/

/-- A step down leads to a place in that where it starts, or stays there. -/
theorem prefix_of_step {d : Disk} {place next : List String} {component : String}
    (hup : component ≠ "..") (h : d.step place component = .ok next) : place <+: next := by
  rw [step] at h
  split at h
  · cases h
  · cases h
  · rw [if_neg hup] at h
    split at h
    · cases h
      exact List.prefix_rfl
    · cases h
      exact List.prefix_append ..

theorem prefix_of_foldlM_step {d : Disk} {components start place : List String}
    (hup : ".." ∉ components) (h : components.foldlM d.step start = .ok place) :
    start <+: place := by
  induction components generalizing start with
  | nil =>
    cases h
    exact List.prefix_rfl
  | cons component rest ih =>
    rw [List.mem_cons, not_or] at hup
    rw [List.foldlM_cons, Fault.bind_eq_ok_iff] at h
    obtain ⟨next, hnext, hrest⟩ := h
    exact (prefix_of_step (Ne.symm hup.1) hnext).trans (ih hup.2 hrest)

/-- A path that leads down passes the places above its end only. -/
theorem foldlM_step_of_prefix {d e : Disk} {components start place : List String}
    (hup : ".." ∉ components) (h : components.foldlM d.step start = .ok place)
    (hsame : ∀ above, above <+: place → e.nodeAt? above = d.nodeAt? above) :
    components.foldlM e.step start = .ok place := by
  induction components generalizing start with
  | nil => exact h
  | cons component rest ih =>
    rw [List.mem_cons, not_or] at hup
    rw [List.foldlM_cons, Fault.bind_eq_ok_iff] at h ⊢
    obtain ⟨next, hnext, hrest⟩ := h
    have habove : start <+: place :=
      (prefix_of_step (Ne.symm hup.1) hnext).trans (prefix_of_foldlM_step hup.2 hrest)
    refine ⟨next, ?_, ih hup.2 hrest⟩
    rw [step, hsame start habove]
    exact hnext

/-! ## Clearing -/

theorem lookup_filter (entries : List (String × DiskNode)) {gone : String → Bool}
    {location : String} (h : gone location = false) :
    (entries.filter fun e => !gone e.1).lookup location = entries.lookup location := by
  induction entries with
  | nil => rfl
  | cons entry rest ih =>
    obtain ⟨key, node⟩ := entry
    rw [List.filter_cons, List.lookup_cons]
    by_cases hkey : location = key
    · subst hkey
      simp [h]
    · rw [beq_false_of_ne hkey]
      split
      · rw [List.lookup_cons, beq_false_of_ne hkey]
        exact ih
      · exact ih

theorem nodeAt?_without (d : Disk) {gone : String → Bool} {place : List String}
    (h : gone (location place) = false) : (d.without gone).nodeAt? place = d.nodeAt? place := by
  rw [nodeAt?, nodeAt?, without, Dictionary.get?, lookup_filter _ h, Dictionary.get?]

/-! ## Beside -/

theorem location_append_singleton (place : List String) (name : String) :
    location (place ++ [name]) = location place ++ "/" ++ name := by
  rw [location, List.foldl_concat]
  rfl

/-- The location of a place begins as those of the places above it. -/
theorem location_append (above rest : List String) :
    ∃ more, location (above ++ rest) = location above ++ more := by
  induction rest using List.reverseRecOn with
  | nil => exact ⟨"", by rw [List.append_nil, String.append_empty]⟩
  | append_singleton rest name ih =>
    obtain ⟨more, hmore⟩ := ih
    refine ⟨more ++ "/" ++ name, ?_⟩
    rw [← List.append_assoc, location_append_singleton, hmore]
    simp only [String.append_assoc]

/-- A place and those above it are not below a place beside it. -/
theorem isBelow_beside {base above : List String} {name : String} (other : String)
    (hname : '/' ∉ name.toList) (habove : above <+: base ++ [name]) :
    isBelow (location (base ++ [other])) (location above) = false := by
  rw [isBelow, Bool.eq_false_iff, Ne, startsWith_iff]
  rintro ⟨rest, hrest⟩
  rw [location_append_singleton] at hrest
  rcases List.prefix_concat_iff.1 habove with rfl | ⟨between, rfl⟩
  · rw [location_append_singleton] at hrest
    have hchars := congrArg String.toList hrest
    simp only [String.toList_append, List.append_assoc, List.append_cancel_left_eq] at hchars
    refine hname ?_
    rw [hchars]
    simp
  · obtain ⟨more, hmore⟩ := location_append above between
    rw [hmore] at hrest
    have hlength := congrArg String.length hrest
    simp only [String.length_append] at hlength
    have hslash : "/".length = 1 := rfl
    omega

/-- A step by a name leads to the place of that name. -/
theorem step_name {d : Disk} {place next : List String} {name : String}
    (hname : name ∉ ["", ".", ".."]) (h : d.step place name = .ok next) :
    next = place ++ [name] := by
  simp only [List.mem_cons, List.not_mem_nil, or_false, not_or] at hname
  rw [step, if_neg (by tauto), if_neg hname.2.2] at h
  split at h
  · cases h
  · cases h
  · exact (Except.ok.inj h).symm

/-- Two paths that part at their last names lead to places beside each other. -/
theorem place_append_name {d : Disk} {path : String} {base place : List String} {name : String}
    (hpath : Path.components path = base ++ [name]) (hname : name ∉ ["", ".", ".."])
    (h : d.place path = .ok place) :
    ∃ above, base.foldlM d.step [] = .ok above ∧ place = above ++ [name] := by
  rw [Disk.place] at h
  split at h
  · cases h
  · rw [hpath, List.foldlM_append, Fault.bind_eq_ok_iff] at h
    obtain ⟨above, habove, hlast⟩ := h
    rw [List.foldlM_cons, Fault.bind_eq_ok_iff] at hlast
    obtain ⟨next, hnext, hdone⟩ := hlast
    cases hdone
    exact ⟨above, habove, step_name hname hnext⟩

/-- A file is read as before when a directory beside it is cleared. -/
theorem read_clearDir {d : Disk} {path dir text : String} {base : List String}
    {name other : String} (hpath : Path.components path = base ++ [name])
    (hdir : Path.components dir = base ++ [other]) (hup : ".." ∉ base)
    (hname : name ∉ ["", ".", ".."]) (hslash : '/' ∉ name.toList) (hother : other ∉ ["", ".", ".."])
    (h : d.read path = .ok text) : (d.clearDir dir).read path = .ok text := by
  rw [clearDir]
  split
  · rename_i cleared hcleared
    split
    · obtain ⟨above, habove, rfl⟩ := place_append_name hdir hother hcleared
      obtain ⟨place, hplace, hfile⟩ := read_eq_ok_iff.1 h
      obtain ⟨above', habove', rfl⟩ := place_append_name hpath hname hplace
      obtain rfl : above = above' := Except.ok.inj (habove.symm.trans habove')
      have hsame (stays : List String) (hstays : stays <+: above ++ [name]) :
          (d.without (isBelow (location (above ++ [other])))).nodeAt? stays = d.nodeAt? stays :=
        nodeAt?_without d (isBelow_beside other hslash hstays)
      refine read_eq_ok_iff.2 ⟨above ++ [name], ?_, (hsame _ List.prefix_rfl).trans hfile⟩
      rw [Disk.place] at hplace ⊢
      split at hplace
      · cases hplace
      · rename_i hempty
        rw [if_neg hempty]
        refine foldlM_step_of_prefix ?_ hplace hsame
        rw [hpath, List.mem_append, List.mem_singleton]
        rintro (hbase | rfl)
        · exact hup hbase
        · simp at hname
    · exact h
  · exact h

end Disk

/-! ## The directory of a database -/

namespace Path

theorem splitAt_of_not_mem {chars : List Char} (h : '/' ∉ chars) :
    splitAt (· = '/') chars = [chars] := by
  induction chars with
  | nil => rfl
  | cons c rest ih =>
    rw [List.mem_cons, not_or] at h
    rw [splitAt, ih h.2]
    exact if_neg (by simpa using Ne.symm h.1)

theorem components_of_not_mem {name : String} (h : '/' ∉ name.toList) :
    components name = [name] := by
  rw [components, splitAt_of_not_mem h, List.map_cons, List.map_nil, String.ofList_toList]

theorem join_of_not_mem (base : String) {name : String} (h : '/' ∉ name.toList) :
    join base name =
      if base.isEmpty ∨ endsWith base "/" then base ++ name else base ++ "/" ++ name := by
  rw [join, if_neg]
  rw [startsWith_iff]
  rintro ⟨rest, rfl⟩
  exact h (by simp)

/-- A name below a path is one step after those of the path. -/
theorem components_join (base : String) :
    ∃ steps, (".." ∈ steps → ".." ∈ components base) ∧
      ∀ name : String, '/' ∉ name.toList → components (join base name) = steps ++ [name] := by
  by_cases hempty : base.isEmpty
  · obtain rfl : base = "" := by simpa using hempty
    refine ⟨[], fun h => absurd h List.not_mem_nil, fun name hname => ?_⟩
    rw [join_of_not_mem _ hname, if_pos (.inl rfl), String.empty_append,
      components_of_not_mem hname, List.nil_append]
  · by_cases hslash : endsWith base "/"
    · obtain ⟨path, rfl⟩ := endsWith_iff.1 hslash
      refine ⟨components path, fun h => ?_, fun name hname => ?_⟩
      · have hpath : path ++ "/" ++ "" = path ++ "/" := String.append_empty
        rw [← hpath, components_append]
        exact List.mem_append_left _ h
      · rw [join_of_not_mem _ hname, if_pos (.inr hslash), components_append,
          components_of_not_mem hname]
    · refine ⟨components base, id, fun name hname => ?_⟩
      rw [join_of_not_mem _ hname, if_neg (not_or.2 ⟨hempty, hslash⟩), components_append,
        components_of_not_mem hname]

end Path

/-- The cache of images in the directory of a database spares the settings file. -/
theorem read_purge_thumbnails {dir text : String} {disk : Disk} (hup : ".." ∉ Path.components dir)
    (h : disk.read (Path.configFile dir) = .ok text) (name : String) :
    (DirectoryCache.purge ⟨name, Path.thumbnailsDir dir⟩ disk).read (Path.configFile dir) =
      .ok text := by
  obtain ⟨steps, hsteps, hjoin⟩ := Path.components_join dir
  exact Disk.read_clearDir (hjoin _ (by decide)) (hjoin _ (by decide)) (mt hsteps hup)
    (by decide) (by decide) (by decide) h

end Mediatheque
