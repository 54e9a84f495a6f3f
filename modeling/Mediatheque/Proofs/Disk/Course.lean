import Mathlib.Data.List.DropRight
import Mathlib.Data.List.Induction
import Mediatheque.Disk.Path

/-!
# Where paths lead

The steps of a path make a course, so many levels up and then down through some names, with
`.` and `..` taken by what is written alone: nothing on the disk is looked at. A course from
the root never goes up, for `..` stays at the root; any other may, to where it is not known.

* `foldl_add`: steps behind a course lead along their own;
* `place_append`: where a path behind a directory leads;
* `within_append_iff`: it leads into the directory if it comes down through the names that it
  has gone up, and only then;
* `within_append_of_not_mem`: a path without `..` leads into the directory;
* `down_course`: the names are those of the path as the disk takes it.
-/

namespace Mediatheque

namespace Path

/-! ## Courses -/

/-- So many levels up and then down through some names, from the root or from elsewhere. -/
structure Course where
  fromRoot : Bool := false
  up : Nat := 0
  down : List String := []
deriving DecidableEq

namespace Course

/-- A course with a step more. A step up takes back the last name, if there is one. -/
def add (c : Course) (step : String) : Course :=
  if step = "" ∨ step = "." then c
  else if step = ".." then
    match c.down with
    | [] => if c.fromRoot then c else { c with up := c.up + 1 }
    | _ :: _ => { c with down := c.down.dropLast }
  else { c with down := c.down ++ [step] }

/-- A course behind another: its levels up take back the last names first. -/
def follow (c more : Course) : Course where
  fromRoot := c.fromRoot
  up := if c.fromRoot then c.up else c.up + (more.up - c.down.length)
  down := c.down.rdrop more.up ++ more.down

/-- Whether a course leads to where another does or below it, so far as is written. -/
def Contains (dir c : Course) : Prop :=
  dir.fromRoot = c.fromRoot ∧ dir.up = c.up ∧ dir.down <+: c.down

instance (dir c : Course) : Decidable (dir.Contains c) := by
  unfold Contains; infer_instance

theorem add_stay {step : String} (h : step = "" ∨ step = ".") (c : Course) : c.add step = c :=
  if_pos h

theorem add_name {step : String} (h : ¬ (step = "" ∨ step = ".")) (hup : step ≠ "..")
    (c : Course) : c.add step = { c with down := c.down ++ [step] } := by
  rw [add, if_neg h, if_neg hup]

theorem fromRoot_add (c : Course) (step : String) : (c.add step).fromRoot = c.fromRoot := by
  unfold add
  split
  · rfl
  split
  · split
    · split <;> rfl
    · rfl
  · rfl

/-- A step up at the end of a course behind another. -/
theorem add_up_follow (c : Course) {more : Course} (h : more.fromRoot = false) :
    (c.follow more).add ".." = c.follow (more.add "..") := by
  rcases hd : more.down with _ | ⟨name, names⟩
  · have hmore : more.add ".." = { more with up := more.up + 1 } := by
      simp [add, hd, h]
    have hnext : c.down.rdrop (more.up + 1) = (c.down.rdrop more.up).dropLast := by
      simp only [List.rdrop, List.dropLast_eq_take, List.take_take, List.length_take]
      congr 1
      omega
    have hlength : (c.down.rdrop more.up).length = c.down.length - more.up := by simp [List.rdrop]
    rw [hmore]
    rcases hr : c.down.rdrop more.up with _ | ⟨first, rest⟩
    · -- All names are taken back already.
      have hle : c.down.length ≤ more.up := by
        rw [hr, List.length_nil] at hlength
        omega
      have hup : c.up + (more.up - c.down.length) + 1 =
          c.up + (more.up + 1 - c.down.length) := by omega
      cases hroot : c.fromRoot <;> simp [add, follow, hd, hr, hroot, hnext, hup]
    · have hlt : more.up < c.down.length := by
        rw [hr, List.length_cons] at hlength
        omega
      have hup : more.up - c.down.length = more.up + 1 - c.down.length := by omega
      simp [add, follow, hd, hr, hnext, hup]
  · have hne : more.down ≠ [] := by simp [hd]
    have hmore : more.add ".." = { more with down := more.down.dropLast } := by
      simp [add, hd]
    have hboth : (c.follow more).down ≠ [] := List.append_ne_nil_of_right_ne_nil _ hne
    obtain ⟨first, rest, hcons⟩ := List.exists_cons_of_ne_nil hboth
    have hadd : (c.follow more).add ".." =
        { c.follow more with down := (c.follow more).down.dropLast } := by
      simp [add, hcons]
    rw [hmore, hadd]
    simp only [follow, List.dropLast_append_of_ne_nil hne]

/-- A step at the end of a course behind another. -/
theorem add_follow (c : Course) {more : Course} (h : more.fromRoot = false) (step : String) :
    (c.follow more).add step = c.follow (more.add step) := by
  by_cases hstay : step = "" ∨ step = "."
  · rw [add_stay hstay, add_stay hstay]
  by_cases hup : step = ".."
  · rw [hup, add_up_follow c h]
  · simp only [add_name hstay hup, follow, List.append_assoc]

theorem follow_nothing (c : Course) : c.follow {} = c := by
  have hup : (if c.fromRoot then c.up else c.up + (0 - c.down.length)) = c.up := by simp
  simp only [follow, hup, List.rdrop_zero, List.append_nil]

/-- A course behind another leads to where that does or below if it comes down through the
names that it has gone up. -/
theorem contains_follow_iff (c more : Course) :
    c.Contains (c.follow more) ↔
      (c.fromRoot = true ∨ more.up ≤ c.down.length) ∧ c.down.rtake more.up <+: more.down := by
  have hlevels : c.up = (c.follow more).up ↔ c.fromRoot = true ∨ more.up ≤ c.down.length := by
    cases hroot : c.fromRoot
    · simp only [follow, hroot, Bool.false_eq_true, if_false, false_or]
      omega
    · simp [follow, hroot]
  have hnames : c.down <+: (c.follow more).down ↔ c.down.rtake more.up <+: more.down := by
    have hsplit : c.down.rdrop more.up ++ c.down.rtake more.up = c.down :=
      List.take_append_drop ..
    nth_rewrite 1 [← hsplit]
    exact List.prefix_append_right_inj _
  rw [Contains, hlevels, hnames]
  exact and_iff_right rfl

end Course

/-- The course of some steps, from wherever they are taken. -/
def course (steps : List String) : Course := steps.foldl Course.add {}

theorem course_append_singleton (steps : List String) (step : String) :
    course (steps ++ [step]) = (course steps).add step := by
  rw [course, List.foldl_append, List.foldl_cons, List.foldl_nil, course]

theorem fromRoot_course (steps : List String) : (course steps).fromRoot = false := by
  induction steps using List.reverseRecOn with
  | nil => rfl
  | append_singleton steps step ih => rw [course_append_singleton, Course.fromRoot_add, ih]

/-- Steps behind a course lead along their own. -/
theorem foldl_add (c : Course) (steps : List String) :
    steps.foldl Course.add c = c.follow (course steps) := by
  induction steps using List.reverseRecOn with
  | nil => exact c.follow_nothing.symm
  | append_singleton steps step ih =>
    rw [List.foldl_append, List.foldl_cons, List.foldl_nil, ih,
      Course.add_follow c (fromRoot_course steps), course_append_singleton]

/-- Steps none of which goes up have a course that does not. -/
theorem up_course_of_not_mem {steps : List String} (h : ".." ∉ steps) : (course steps).up = 0 := by
  induction steps using List.reverseRecOn with
  | nil => rfl
  | append_singleton steps step ih =>
    have hsteps : ".." ∉ steps := fun hm => h (List.mem_append_left _ hm)
    have hstep : step ≠ ".." := fun he => h (by simp [he])
    rw [course_append_singleton, Course.add, if_neg hstep]
    split
    · exact ih hsteps
    · exact ih hsteps

/-- The names of a course are those that the disk finds for its steps. -/
theorem down_course (steps : List String) : (course steps).down = resolveDots steps := by
  rw [resolveDots, ← List.reverse_eq_iff]
  induction steps using List.reverseRecOn with
  | nil => rfl
  | append_singleton steps step ih =>
    rw [course_append_singleton, List.foldl_append, List.foldl_cons, List.foldl_nil, ← ih]
    by_cases hstay : step = "" ∨ step = "."
    · rw [Course.add_stay hstay, if_pos hstay]
    by_cases hup : step = ".."
    · rw [Course.add, if_neg hstay, if_pos hup, if_neg hstay, if_pos hup]
      rcases hd : (course steps).down with _ | ⟨name, names⟩
      · simp [fromRoot_course]
      · rw [List.tail_reverse]
    · rw [Course.add_name hstay hup, if_neg hstay, if_neg hup, List.reverse_append]
      rfl

/-! ## Paths -/

/-- Where a path leads. -/
def place (path : String) : Course :=
  (components path).foldl Course.add { fromRoot := startsWith path "/" }

/-- Whether a path leads to a directory or below it. -/
def Within (dir path : String) : Prop := (place dir).Contains (place path)

theorem components_append (path rest : String) :
    components (path ++ "/" ++ rest) = components path ++ components rest := by
  have hslash : "/".toList = ['/'] := rfl
  rw [components, String.toList_append, String.toList_append, hslash, List.append_assoc,
    List.singleton_append, splitAt_append_cons (by decide), List.map_append]
  rfl

/-- What follows a slash does not change where a path starts. -/
theorem startsWith_slash_append (path rest : String) :
    startsWith (path ++ "/" ++ rest) "/" = startsWith (path ++ "/") "/" := by
  have hslash : "/".toList = ['/'] := rfl
  simp only [startsWith, String.toList_append, hslash]
  cases path.toList with
  | nil => rfl
  | cons c _ =>
    simp only [List.cons_append, dropPrefix?]
    split <;> rfl

/-- A path behind a directory leads along its course from there. -/
theorem place_append (path rest : String) :
    place (path ++ "/" ++ rest) = (place (path ++ "/")).follow (course (components rest)) := by
  have hempty : components "" = [""] := rfl
  have hdir : components (path ++ "/") = components path ++ [""] := by
    rw [← hempty, ← components_append, String.append_empty]
  rw [place, startsWith_slash_append, components_append, List.foldl_append, place, hdir,
    List.foldl_append, List.foldl_cons, List.foldl_nil, Course.add_stay (.inl rfl), foldl_add]

/-- A path behind a directory leads into it if it comes down through the names that it has gone
up, and only then. -/
theorem within_append_iff (path rest : String) :
    Within (path ++ "/") (path ++ "/" ++ rest) ↔
      ((place (path ++ "/")).fromRoot = true ∨
          (course (components rest)).up ≤ (place (path ++ "/")).down.length) ∧
        (place (path ++ "/")).down.rtake (course (components rest)).up <+:
          (course (components rest)).down := by
  rw [Within, place_append, Course.contains_follow_iff]

/-- A path without `..` leads into the directory that it stands behind. -/
theorem within_append_of_not_mem (path : String) {rest : String} (h : ".." ∉ components rest) :
    Within (path ++ "/") (path ++ "/" ++ rest) := by
  have hzero : ∀ names : List String, names.rtake 0 = [] := fun names => List.drop_length
  rw [within_append_iff, up_course_of_not_mem h, hzero]
  exact ⟨.inr (Nat.zero_le _), List.nil_prefix⟩

end Path

end Mediatheque
