import Mathlib.Data.List.Nodup
import Mediatheque.Proofs.Export.Confinement

/-!
# What is taken from the export table

A directory is removed through the lookup that finds the directory of a file: the first entry
that holds the path is taken out, whether it is the entry of that path or of a directory further
up. As entries are distinct (`nodup_performAll`), all the others stay (`delete_eq_without`). So a
directory is removed, and only it, unless an entry in front of it holds its path, or any entry if
it has none of its own (`unexports_iff`).
-/

namespace Mediatheque

namespace ExportTable

variable {t : ExportTable} {path dir : String}

/-! ## Entries -/

theorem nodup_perform (h : t.dirs.Nodup) (change : Change) : (t.perform change).dirs.Nodup := by
  cases change with
  | setRootUri uri => exact h
  | setParameter name value =>
    rw [perform, dirs_setParameter]
    exact h
  | add path =>
    rw [perform, add]
    split
    · exact h
    · exact List.nodup_append.2 ⟨h, List.nodup_singleton _, by grind⟩
  | delete path => exact List.Nodup.eraseP _ h

theorem nodup_performAll (h : t.dirs.Nodup) (changes : List Change) :
    (t.performAll changes).dirs.Nodup := by
  induction changes generalizing t with
  | nil => exact h
  | cons change changes ih => exact ih (nodup_perform h change)

/-! ## The entry that is found -/

/-- A directory of the table holds a path: it is the path with a slash more, or the path starts
with it. -/
def Holds (dir path : String) : Prop := dir = path ++ "/" ∨ ∃ rest, path = dir ++ rest

theorem covers_iff : covers dir path = true ↔ Holds dir path := by
  rw [covers, Bool.or_eq_true, startsWith_iff, decide_eq_true_iff, Holds, or_comm]

/-- The entry of a directory holds the directory's path. -/
theorem holds_slashed (path : String) : Holds (slashed path) path := by
  unfold slashed
  split
  · exact .inr ⟨"", (String.append_empty ..).symm⟩
  · exact .inl rfl

/-- The first directory of a table that holds a path. -/
def FirstHolder (t : ExportTable) (path dir : String) : Prop :=
  ∃ before after, t.dirs = before ++ dir :: after ∧ Holds dir path ∧
    ∀ earlier ∈ before, ¬ Holds earlier path

theorem dirOf?_eq_some_iff : t.dirOf? path = some dir ↔ t.FirstHolder path dir := by
  rw [dirOf?, List.find?_eq_some_iff_append, covers_iff]
  constructor
  · rintro ⟨hholds, before, after, hdirs, hbefore⟩
    refine ⟨before, after, hdirs, hholds, fun earlier hearlier h => ?_⟩
    have hnot := hbefore earlier hearlier
    rw [covers_iff.2 h] at hnot
    cases hnot
  · rintro ⟨before, after, hdirs, hholds, hbefore⟩
    refine ⟨hholds, before, after, hdirs, fun earlier hearlier => ?_⟩
    rw [Bool.not_eq_true']
    exact Bool.eq_false_iff.2 fun h => hbefore earlier hearlier (covers_iff.1 h)

theorem dirOf?_eq_none_iff : t.dirOf? path = none ↔ ∀ dir ∈ t.dirs, ¬ Holds dir path := by
  simp only [dirOf?, List.find?_eq_none, covers_iff]

/-! ## Removing -/

/-- A table without one of its directories. -/
def without (t : ExportTable) (dir : String) : ExportTable :=
  { t with dirs := t.dirs.filter (· ≠ dir) }

theorem filter_ne_of_not_mem {dirs : List String} (h : dir ∉ dirs) :
    dirs.filter (· ≠ dir) = dirs := by
  refine List.filter_eq_self.2 fun other hother => decide_eq_true ?_
  rintro rfl
  exact h hother

/-- A table that lacks a directory is the same without it. -/
theorem without_of_not_mem (h : dir ∉ t.dirs) : t.without dir = t := by
  rw [without, filter_ne_of_not_mem h]

/-- What is left of the directories when the path of one of them, held by none before it, is
removed. -/
theorem dirs_delete {before after : List String} (hdirs : t.dirs = before ++ dir :: after)
    (hholds : Holds dir path) (hbefore : ∀ earlier ∈ before, ¬ Holds earlier path) :
    (t.delete path).dirs = before ++ after := by
  rw [delete, hdirs, List.eraseP_append_right _ fun earlier hearlier hcovers =>
    hbefore earlier hearlier (covers_iff.1 hcovers)]
  exact congrArg (before ++ ·) (List.eraseP_cons_of_pos (covers_iff.2 hholds))

/-- The first directory that holds the path is removed, and none else. -/
theorem delete_eq_without (hnodup : t.dirs.Nodup) (h : t.FirstHolder path dir) :
    t.delete path = t.without dir := by
  obtain ⟨before, after, hdirs, hholds, hbefore⟩ := h
  have hfilter : t.dirs.filter (· ≠ dir) = before ++ after := by
    rw [hdirs, List.nodup_middle, List.nodup_cons, List.mem_append, not_or] at hnodup
    rw [hdirs, List.filter_append, List.filter_cons_of_neg (by simp),
      filter_ne_of_not_mem hnodup.1.1, filter_ne_of_not_mem hnodup.1.2]
  have hdelete : t.delete path = { t with dirs := (t.delete path).dirs } := rfl
  rw [hdelete, dirs_delete hdirs hholds hbefore, without, hfilter]

/-- Nothing is removed if no directory holds the path. -/
theorem delete_of_forall_not_holds (h : ∀ dir ∈ t.dirs, ¬ Holds dir path) : t.delete path = t := by
  rw [delete, List.eraseP_of_forall_not fun dir hdir hcovers => h dir hdir (covers_iff.1 hcovers)]

/-- Removing a path takes its own entry out of the table, if there is one, and leaves all the
others, in their order. -/
def Unexports (t : ExportTable) (path : String) : Prop :=
  t.delete path = t.without (slashed path)

/-- A path that a directory holds is removed, and only it, if the first such directory is its
own entry. -/
theorem unexports_of_firstHolder (hnodup : t.dirs.Nodup) (h : t.FirstHolder path dir) :
    t.Unexports path ↔ dir = slashed path := by
  rw [Unexports, delete_eq_without hnodup h]
  constructor
  · intro hsame
    obtain ⟨before, after, hdirs, -, -⟩ := h
    by_contra hne
    have hmem : dir ∈ (t.without (slashed path)).dirs :=
      List.mem_filter.2 ⟨by rw [hdirs]; exact List.mem_append_cons_self, decide_eq_true hne⟩
    rw [← hsame] at hmem
    exact of_decide_eq_true (List.mem_filter.1 hmem).2 rfl
  · rintro rfl
    rfl

/-- What has just been added is removed again if no directory held it before. -/
theorem delete_add_eq_self (h : ∀ dir ∈ t.dirs, ¬ Holds dir path) :
    (t.add path).delete path = t := by
  have hnot : slashed path ∉ t.dirs := fun hmem => h _ hmem (holds_slashed path)
  have hadd : (t.add path).dirs = t.dirs ++ [slashed path] := by rw [add, if_neg hnot]
  have hdelete : (t.add path).delete path = { t with dirs := ((t.add path).delete path).dirs } := by
    rw [add, if_neg hnot]
    rfl
  rw [hdelete, dirs_delete hadd (holds_slashed path) h, List.append_nil]

/-- An entry that held the path before is removed in place of the one that was added. -/
theorem firstHolder_add (h : t.FirstHolder path dir) : (t.add path).FirstHolder path dir := by
  unfold add
  split
  · exact h
  · obtain ⟨before, after, hdirs, hholds, hbefore⟩ := h
    refine ⟨before, after ++ [slashed path], ?_, hholds, hbefore⟩
    rw [hdirs, List.append_assoc, List.cons_append]

/-- However a table came about: the first directory that holds a path is removed, and nothing
else. That is the path's own entry and nothing else unless another directory holds the path first;
and adding a path and removing it again leads back to the table that lacked it exactly if none of
its directories holds the path. -/
theorem unexports_iff {changes : List Change} (ht : empty.performAll changes = t)
    (path : String) :
    (t.Unexports path ↔ ∀ dir, t.FirstHolder path dir → dir = slashed path) ∧
    (∀ dir, t.FirstHolder path dir → t.delete path = t.without dir) ∧
    ((∀ dir ∈ t.dirs, ¬ Holds dir path) → t.delete path = t) ∧
    (slashed path ∉ t.dirs →
      ((t.add path).delete path = t ↔ ∀ dir ∈ t.dirs, ¬ Holds dir path)) := by
  have hnodup : t.dirs.Nodup := by
    rw [← ht]
    exact nodup_performAll List.nodup_nil changes
  refine ⟨?_, fun dir h => delete_eq_without hnodup h, delete_of_forall_not_holds, fun hnot => ?_⟩
  · cases hfound : t.dirOf? path with
    | none =>
      have hnone := dirOf?_eq_none_iff.1 hfound
      refine iff_of_true ?_ fun dir h => ?_
      · have hnot : slashed path ∉ t.dirs := fun hmem => hnone _ hmem (holds_slashed path)
        rw [Unexports, delete_of_forall_not_holds hnone, without_of_not_mem hnot]
      · rw [← dirOf?_eq_some_iff, hfound] at h
        cases h
    | some dir =>
      rw [unexports_of_firstHolder hnodup (dirOf?_eq_some_iff.1 hfound)]
      refine ⟨fun hown other h => ?_, fun h => h dir (dirOf?_eq_some_iff.1 hfound)⟩
      rw [← dirOf?_eq_some_iff, hfound] at h
      rw [← Option.some.inj h, hown]
  · refine ⟨fun hback => ?_, delete_add_eq_self⟩
    rw [← dirOf?_eq_none_iff, Option.eq_none_iff_forall_ne_some]
    intro dir hfound
    have hfirst := dirOf?_eq_some_iff.1 hfound
    have hnodup' : (t.add path).dirs.Nodup := nodup_perform hnodup (.add path)
    have hdir : dir ∈ t.dirs := List.mem_of_find?_eq_some hfound
    rw [delete_eq_without hnodup' (firstHolder_add hfirst)] at hback
    rw [← hback] at hdir
    exact of_decide_eq_true (List.mem_filter.1 hdir).2 rfl

/-- A directory between its sibling of a longer name and the directory above it is removed, and
only it. -/
theorem unexports_nested :
    (empty.performAll [.add "/music/live2", .add "/music/live", .add "/music/"]).Unexports
      "/music/live" := by
  refine ((unexports_iff rfl "/music/live").1).2 fun dir h => ?_
  have hfound : (empty.performAll
      [.add "/music/live2", .add "/music/live", .add "/music/"]).dirOf? "/music/live" =
        some "/music/live/" := by decide
  rw [← dirOf?_eq_some_iff, hfound] at h
  rw [← Option.some.inj h]
  decide

/-- Removing a directory that was never added takes away the one above it. -/
theorem not_unexports :
    ¬ ∀ changes path, (empty.performAll changes).Unexports path := by
  intro h
  have hremoved := h [.add "/music"] "/music/live"
  revert hremoved
  unfold Unexports
  decide

end ExportTable

end Mediatheque
