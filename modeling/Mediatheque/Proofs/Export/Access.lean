import Mediatheque.Proofs.Export.Confinement
import Mediatheque.Proofs.List
import Mediatheque.Proofs.ObjectId.Trim

/-!
# Which files the export table gives away

A table has the settings that were given to it last (`governed_performAll`), whatever else was
changed before and after. So the access check can be said without the table's own settings
(`Granted`, `isExported_performAll`): the switch was turned on last, no spelling of the path is
at or below a directory of the last list of restricted ones, and some spelling is in a directory
of the table or at or below one of the last list of exported ones. Both ways to a file ask that
check (`granted_of_given`).
-/

namespace Mediatheque

/-- A value that turns a switch on. -/
def ParameterValue.IsOn (value : ParameterValue) : Prop :=
  value = .bool true ∨ ∃ i, value = .int i ∧ i ≠ 0

theorem ParameterValue.asBool?_eq_some_true_iff {value : ParameterValue} :
    value.asBool? = some true ↔ value.IsOn := by
  cases value <;> simp [asBool?, IsOn]

namespace ExportTable

variable {canonical : Canonical} {changes : List Change} {path : String} {t : ExportTable}

/-! ## Paths at or below a directory -/

/-- A path is that of a directory, or goes on behind it with a slash. It does not matter how many
slashes the directory has at its end. -/
def AtOrBelow (dir path : String) : Prop :=
  ∃ start k, dir.toList = start ++ List.replicate k '/' ∧ start.getLast? ≠ some '/' ∧
    (path.toList = start ∨ ∃ rest, path.toList = start ++ '/' :: rest)

theorem atOrBelow_iff {dir : String} :
    AtOrBelow dir path ↔ path.toList = dropTrailing (· = '/') dir.toList ∨
      ∃ rest, path.toList = dropTrailing (· = '/') dir.toList ++ '/' :: rest := by
  constructor
  · rintro ⟨start, k, hdir, hstart, hpath⟩
    rw [hdir, dropTrailing_append_replicate hstart]
    exact hpath
  · intro hpath
    obtain ⟨k, hk⟩ := exists_eq_dropTrailing_append '/' dir.toList
    exact ⟨_, k, hk, getLast?_dropTrailing_ne '/' dir.toList, hpath⟩

theorem isBelow_iff {dirs : List String} :
    isBelow dirs path = true ↔ ∃ dir ∈ dirs, AtOrBelow dir path := by
  rw [isBelow, List.any_eq_true]
  refine exists_congr fun dir => and_congr_right fun _ => ?_
  rw [atOrBelow_iff]
  cases hdrop : dropPrefix? (dropTrailing (· = '/') dir.toList) path.toList with
  | none =>
    refine iff_of_false Bool.false_ne_true ?_
    have hne (rest : List Char) : path.toList ≠ dropTrailing (· = '/') dir.toList ++ rest := by
      intro h
      rw [dropPrefix?_eq_some_iff.2 h] at hdrop
      cases hdrop
    rintro (h | ⟨rest, h⟩)
    · exact hne [] (by rw [h, List.append_nil])
    · exact hne _ h
  | some rest =>
    rw [dropPrefix?_eq_some_iff.1 hdrop]
    cases rest <;> simp

/-! ## What a table was last told -/

/-- What a change gives to a setting. -/
def Change.value? (name : String) : Change → Option ParameterValue
  | .setParameter n value => if n = name then some value else none
  | _ => none

/-- The value that a setting was given last. -/
def lastGiven? (changes : List Change) (name : String) : Option ParameterValue :=
  changes.reverse.findSome? (·.value? name)

/-- The list that a setting was given last; a value of another kind stands for an empty one. -/
def lastList (changes : List Change) (name : String) : List String :=
  match lastGiven? changes name with
  | some (.stringList items) => items
  | _ => []

theorem lastGiven?_append_singleton (changes : List Change) (change : Change) (name : String) :
    lastGiven? (changes ++ [change]) name = (change.value? name).or (lastGiven? changes name) :=
  findSome?_reverse_append_singleton ..

theorem lastList_append_singleton (changes : List Change) (change : Change) (name : String) :
    lastList (changes ++ [change]) name =
      match change.value? name with
      | some value => value.asList?.getD []
      | none => lastList changes name := by
  rw [lastList, lastGiven?_append_singleton]
  cases change.value? name with
  | none => rfl
  | some value => cases value <;> rfl

/-- Exporting was switched on last, not off. -/
def SwitchedOn (changes : List Change) : Prop :=
  ∃ value, lastGiven? changes "export_media_dirs" = some value ∧ value.IsOn

theorem switchedOn_append_singleton (changes : List Change) (change : Change) :
    SwitchedOn (changes ++ [change]) ↔
      match change.value? "export_media_dirs" with
      | some value => value.asBool? = some true
      | none => SwitchedOn changes := by
  rw [SwitchedOn, lastGiven?_append_singleton]
  cases change.value? "export_media_dirs" with
  | none => rfl
  | some value => simp [ParameterValue.asBool?_eq_some_true_iff]

/-- The settings of a table are those that it was given last. -/
structure Governed (t : ExportTable) (changes : List Change) : Prop where
  enabled : t.enabled = true ↔ SwitchedOn changes
  allowed : t.allowed = lastList changes "export_dirs"
  restricted : t.restricted = lastList changes "restrict_dirs"

theorem governed_empty : empty.Governed [] := by
  refine ⟨iff_of_false Bool.false_ne_true ?_, rfl, rfl⟩
  rintro ⟨value, hvalue, -⟩
  cases hvalue

/-- A change that gives no value leaves the settings alone. -/
theorem Governed.congr {u : ExportTable} (h : t.Governed changes) {change : Change}
    (hchange : ∀ name, change.value? name = none) (henabled : u.enabled = t.enabled)
    (hallowed : u.allowed = t.allowed) (hrestricted : u.restricted = t.restricted) :
    u.Governed (changes ++ [change]) := by
  refine ⟨?_, ?_, ?_⟩
  · rw [henabled, switchedOn_append_singleton, hchange]
    exact h.enabled
  · rw [hallowed, lastList_append_singleton, hchange]
    exact h.allowed
  · rw [hrestricted, lastList_append_singleton, hchange]
    exact h.restricted

/-- A value reaches the setting of that name and no other. -/
theorem setParameter_eq (t : ExportTable) (name : String) (value : ParameterValue) :
    (t.setParameter name value).1 =
      { t with
        enabled := if name = "export_media_dirs" then value.asBool?.getD false else t.enabled
        allowed := if name = "export_dirs" then value.asList?.getD [] else t.allowed
        restricted := if name = "restrict_dirs" then value.asList?.getD [] else t.restricted } := by
  unfold setParameter
  split
  · simp
  · simp
  · simp
  · rename_i henabled hallowed hrestricted
    rw [if_neg henabled, if_neg hallowed, if_neg hrestricted]

theorem governed_setParameter (h : t.Governed changes) (name : String) (value : ParameterValue) :
    (t.setParameter name value).1.Governed (changes ++ [.setParameter name value]) := by
  rw [setParameter_eq]
  refine ⟨?_, ?_, ?_⟩
  · rw [switchedOn_append_singleton, Change.value?]
    by_cases hname : name = "export_media_dirs"
    · simp only [if_pos hname]
      cases value.asBool? <;> simp
    · simp only [if_neg hname]
      exact h.enabled
  · rw [lastList_append_singleton, Change.value?]
    by_cases hname : name = "export_dirs"
    · simp only [if_pos hname]
    · simp only [if_neg hname]
      exact h.allowed
  · rw [lastList_append_singleton, Change.value?]
    by_cases hname : name = "restrict_dirs"
    · simp only [if_pos hname]
    · simp only [if_neg hname]
      exact h.restricted

theorem governed_perform (h : t.Governed changes) (change : Change) :
    (t.perform change).Governed (changes ++ [change]) := by
  cases change with
  | setRootUri uri => exact h.congr (fun _ => rfl) rfl rfl rfl
  | setParameter name value => exact governed_setParameter h name value
  | add path =>
    rw [perform, add]
    split
    · exact h.congr (fun _ => rfl) rfl rfl rfl
    · exact h.congr (fun _ => rfl) rfl rfl rfl
  | delete path => exact h.congr (fun _ => rfl) rfl rfl rfl

theorem performAll_append_singleton (t : ExportTable) (changes : List Change) (change : Change) :
    t.performAll (changes ++ [change]) = (t.performAll changes).perform change :=
  List.foldl_append

/-- However a table came about, its settings are those that it was given last. -/
theorem governed_performAll (changes : List Change) :
    (empty.performAll changes).Governed changes := by
  induction changes using List.reverseRecOn with
  | nil => exact governed_empty
  | append_singleton changes change ih =>
    rw [performAll_append_singleton]
    exact governed_perform ih change

/-! ## The access check -/

/-- A path is a directory of the table, or goes on behind it with a slash. -/
def InTable (t : ExportTable) (path : String) : Prop :=
  ∃ start, start ++ "/" ∈ t.dirs ∧ (path = start ∨ ∃ rest, path = start ++ "/" ++ rest)

theorem isSome_dirOf?_iff (h : t.Slashed) : (t.dirOf? path).isSome = true ↔ t.InTable path := by
  rw [dirOf?, List.find?_isSome]
  constructor
  · rintro ⟨dir, hdir, hcovers⟩
    obtain ⟨start, rfl⟩ := h dir hdir
    refine ⟨start, hdir, ?_⟩
    rcases Bool.or_eq_true_iff.1 hcovers with hstart | hsame
    · exact .inr (startsWith_iff.1 hstart)
    · exact .inl ((String.append_left_inj _).1 (of_decide_eq_true hsame)).symm
  · rintro ⟨start, hdir, rfl | ⟨rest, rfl⟩⟩
    · refine ⟨_, hdir, ?_⟩
      rw [covers, decide_eq_true rfl, Bool.or_true]
    · refine ⟨_, hdir, ?_⟩
      rw [covers, startsWith_iff.2 ⟨rest, rfl⟩, Bool.true_or]

/-- What must hold of a file that a table gives away, seen from the changes that made the table:
exporting was switched on last, no spelling of the path is restricted, and some spelling is
exported. -/
structure Granted (changes : List Change) (t : ExportTable) (canonical : Canonical)
    (path : String) : Prop where
  switched : SwitchedOn changes
  unrestricted : ∀ spelling, spelling = path ∨ canonical path = some spelling →
    ∀ dir ∈ lastList changes "restrict_dirs", ¬ AtOrBelow dir spelling
  exported : ∃ spelling, (spelling = path ∨ canonical path = some spelling) ∧
    (t.InTable spelling ∨ ∃ dir ∈ lastList changes "export_dirs", AtOrBelow dir spelling)

/-- The access check lets through what the changes of the table grant, and nothing else. -/
theorem isExported_performAll (changes : List Change) (canonical : Canonical) (path : String) :
    (empty.performAll changes).isExported canonical path = true ↔
      Granted changes (empty.performAll changes) canonical path := by
  have hgoverned := governed_performAll changes
  have hslashed := slashed_performAll slashed_empty changes
  have hspelling (spelling : String) : spelling ∈ path :: (canonical path).toList ↔
      spelling = path ∨ canonical path = some spelling := by
    rw [List.mem_cons, Option.mem_toList]
  simp only [isExported, Bool.and_eq_true, Bool.not_eq_true', List.any_eq_true, List.any_eq_false,
    Bool.or_eq_true, isSome_dirOf?_iff hslashed, isBelow_iff, hspelling, hgoverned.enabled,
    hgoverned.allowed, hgoverned.restricted]
  constructor
  · rintro ⟨⟨hswitched, hexported⟩, hunrestricted⟩
    refine ⟨hswitched, fun spelling hs dir hdir hbelow => ?_, hexported⟩
    exact hunrestricted spelling hs ⟨dir, hdir, hbelow⟩
  · rintro ⟨hswitched, hunrestricted, hexported⟩
    refine ⟨⟨hswitched, hexported⟩, fun spelling hs hbelow => ?_⟩
    obtain ⟨dir, hdir, hbelow⟩ := hbelow
    exact hunrestricted spelling hs dir hdir hbelow

/-! ## Ways to a file -/

theorem localToExternal?_eq_some_iff {address : String} :
    t.localToExternal? canonical path = some address ↔
      namesPart path = false ∧ t.isExported canonical path = true ∧
        ∃ root dir, t.rootUri = some root ∧ t.dirOf? path = some dir ∧
          root ++ externalPath dir ++
            String.ofList (Percent.encode ((afterPrefix? dir path).getD "").toList) = address := by
  unfold localToExternal?
  cases namesPart path <;> cases t.isExported canonical path <;>
    simp [Option.bind_eq_some_iff]

/-- A table gives a file away: the file has an address, or an address leads to it. -/
def Gives (t : ExportTable) (canonical : Canonical) (path : String) : Prop :=
  (∃ address, t.localToExternal? canonical path = some address) ∨
    ∃ address, t.externalToLocal? canonical address = some path

theorem isExported_of_gives (h : t.Gives canonical path) : t.isExported canonical path = true := by
  rcases h with ⟨address, h⟩ | ⟨address, h⟩
  · exact (localToExternal?_eq_some_iff.1 h).2.1
  · obtain ⟨dir, -, h⟩ := Option.bind_eq_some_iff.1 h
    obtain ⟨rest, -, h⟩ := Option.bind_eq_some_iff.1 h
    obtain ⟨hexported, hfile⟩ := Option.ite_none_right_eq_some.1 h
    rw [Option.some.inj hfile] at hexported
    exact hexported

/-- However a table came about, a file that has an address, and one that an address leads to, is
granted by the changes. -/
theorem granted_of_gives (h : (empty.performAll changes).Gives canonical path) :
    Granted changes (empty.performAll changes) canonical path :=
  (isExported_performAll changes canonical path).1 (isExported_of_gives h)

/-- A directory that is restricted at first, and later only a part of it. -/
def releasing : List Change :=
  [.add "/music", .setParameter "restrict_dirs" (.stringList ["/music"]),
    .setParameter "export_media_dirs" (.int 1),
    .setParameter "restrict_dirs" (.stringList ["/music/private//"])]

/-- A file of the part that is no longer restricted is given away. -/
theorem granted_releasing :
    Granted releasing (empty.performAll releasing) (fun _ => some "/disk/song.mp3")
      "/music/song.mp3" := by
  refine granted_of_gives (.inr ⟨externalPath "/music/" ++ "song.mp3", ?_⟩)
  refine externalToLocal?_eq_some_iff.2 ⟨"/music/", "song.mp3", ?_, rfl, rfl, rfl, by decide⟩
  exact List.find?_cons_of_pos (startsWith_iff.2 ⟨"song.mp3", rfl⟩)

end ExportTable

end Mediatheque
