import Mathlib.Data.List.DropRight
import Mediatheque.ObjectId

/-!
# Ids without trailing slashes

An id is taken without the slashes at its end, and slashes alone are taken for a single one
(`IsTrimmed`, `isTrimmed_normalizeChars`). Further slashes at the end of an id that starts
with one make no difference (`normalizeChars_append_replicate`), and what lies below a
trimmed id keeps it for a beginning (`normalizeChars_append_of_getLast?`).
-/

namespace Mediatheque

section

variable {α : Type} (test : α → Bool)

theorem dropTrailing_eq_rdropWhile (l : List α) : dropTrailing test l = l.rdropWhile test := by
  induction l with
  | nil => rfl
  | cons a l ih =>
    have h : (a :: l).rdropWhile test =
        if l.rdropWhile test = [] then [a].rdropWhile test else a :: l.rdropWhile test := by
      simp only [List.rdropWhile, List.reverse_cons, List.dropWhile_append, List.isEmpty_iff,
        List.reverse_eq_nil_iff]
      split <;> simp
    rw [h, dropTrailing, ih, List.rdropWhile_singleton]
    cases l.rdropWhile test with
    | nil => rfl
    | cons b rest => rfl

variable {test}

theorem dropTrailing_append_of_all {t : List α} (ht : ∀ a ∈ t, test a) (l : List α) :
    dropTrailing test (l ++ t) = dropTrailing test l := by
  rw [dropTrailing_eq_rdropWhile, dropTrailing_eq_rdropWhile, List.rdropWhile,
    List.reverse_append, List.dropWhile_append_of_pos (by simpa using ht), ← List.rdropWhile]

/-- What is dropped is one item, some times over. -/
theorem exists_eq_dropTrailing_append [DecidableEq α] (a : α) (l : List α) :
    ∃ k, l = dropTrailing (· = a) l ++ List.replicate k a := by
  have hs : l.rtakeWhile (· = a) = List.replicate (l.rtakeWhile (· = a)).length a :=
    List.eq_replicate_of_mem fun b hb => by simpa using List.mem_rtakeWhile_imp hb
  refine ⟨(l.rtakeWhile (· = a)).length, ?_⟩
  rw [← hs, dropTrailing_eq_rdropWhile, List.rdropWhile_append_rtakeWhile]

theorem getLast?_dropTrailing_ne [DecidableEq α] (a : α) (l : List α) :
    (dropTrailing (· = a) l).getLast? ≠ some a := by
  intro hl
  rw [dropTrailing_eq_rdropWhile] at hl
  have hne : l.rdropWhile (· = a) ≠ [] := by
    intro h
    rw [h] at hl
    cases hl
  have hlast := (List.getLast_eq_iff_getLast?_eq_some hne).2 hl
  exact List.rdropWhile_last_not _ _ hne (by simp [hlast])

/-- A list that does not end with an item is what is left of it and any number of the item. -/
theorem dropTrailing_append_replicate [DecidableEq α] {a : α} {l : List α}
    (h : l.getLast? ≠ some a) (k : Nat) : dropTrailing (· = a) (l ++ List.replicate k a) = l := by
  rw [dropTrailing_append_of_all (by simp +contextual), dropTrailing_eq_rdropWhile,
    List.rdropWhile_eq_self_iff]
  intro hne hlast
  exact h ((List.getLast_eq_iff_getLast?_eq_some hne).1 (by simpa using hlast))

/-- Nothing is dropped before an item that fails the test. -/
theorem dropTrailing_append_of_getLast? {l : List α} {a : α} (hl : l.getLast? = some a)
    (ha : test a = false) (t : List α) : dropTrailing test (l ++ t) = l ++ dropTrailing test t := by
  obtain ⟨s, rfl⟩ := List.getLast?_eq_some_iff.1 hl
  rw [dropTrailing_eq_rdropWhile, dropTrailing_eq_rdropWhile, List.rdropWhile, List.rdropWhile,
    List.reverse_append, List.dropWhile_append]
  split
  · rename_i h
    rw [List.isEmpty_iff.1 h]
    simp [ha]
  · simp

end

namespace ObjectId

/-- Whether a text has one or more slashes and nothing else. -/
def OnlySlashes (id : List Char) : Prop := id ≠ [] ∧ ∀ c ∈ id, c = '/'

/-- Whether a text is another without the slashes at its end, or a single slash if the
other has nothing else. -/
def IsTrimmed (id text : List Char) : Prop :=
  (OnlySlashes id → text = ['/']) ∧
    (¬ OnlySlashes id → (∃ k, id = text ++ List.replicate k '/') ∧ text.getLast? ≠ some '/')

theorem normalizeChars_of_eq_nil {id : List Char} (h : dropTrailing (· = '/') id = []) :
    normalizeChars id = if id.isEmpty then [] else ['/'] := by
  rw [normalizeChars, h]

theorem normalizeChars_of_ne_nil {id : List Char} (h : dropTrailing (· = '/') id ≠ []) :
    normalizeChars id = dropTrailing (· = '/') id := by
  unfold normalizeChars
  split
  · contradiction
  · rfl

theorem dropTrailing_eq_nil_iff {id : List Char} :
    dropTrailing (· = '/') id = [] ↔ ∀ c ∈ id, c = '/' := by
  rw [dropTrailing_eq_rdropWhile, List.rdropWhile_eq_nil_iff]
  simp

theorem isTrimmed_normalizeChars (id : List Char) : IsTrimmed id (normalizeChars id) := by
  refine ⟨fun h => ?_, fun h => ?_⟩
  · rw [normalizeChars_of_eq_nil (dropTrailing_eq_nil_iff.2 h.2)]
    simp [h.1]
  · have e : normalizeChars id = dropTrailing (· = '/') id := by
      by_cases hd : dropTrailing (· = '/') id = []
      · obtain rfl : id = [] := by
          by_contra hne
          exact h ⟨hne, dropTrailing_eq_nil_iff.1 hd⟩
        rfl
      · exact normalizeChars_of_ne_nil hd
    rw [e]
    exact ⟨exists_eq_dropTrailing_append '/' id, getLast?_dropTrailing_ne '/' id⟩

/-- An id starts with the same character without the slashes at its end. -/
theorem head?_normalizeChars (id : List Char) : (normalizeChars id).head? = id.head? := by
  cases hd : dropTrailing (· = '/') id with
  | nil =>
    rw [normalizeChars_of_eq_nil hd]
    cases id with
    | nil => rfl
    | cons c rest =>
      have hc : c = '/' := dropTrailing_eq_nil_iff.1 hd c List.mem_cons_self
      rw [hc]
      rfl
  | cons c kept =>
    have hp := List.rdropWhile_prefix (· = '/') id
    rw [← dropTrailing_eq_rdropWhile, hd] at hp
    rw [normalizeChars_of_ne_nil (hd ▸ List.cons_ne_nil c kept), hd, List.head?_cons]
    obtain ⟨rest, rfl⟩ := hp
    rfl

/-- An id with a slash in front keeps it. -/
theorem head?_normalize {id : String} (h : id.toList.head? = some '/') :
    (normalize id).toList.head? = some '/' := by
  rw [normalize, String.toList_ofList, head?_normalizeChars]
  exact h

/-- Further slashes at the end of an id that starts with one make no difference. -/
theorem normalizeChars_append_replicate {id : List Char} (h : id.head? = some '/') (k : Nat) :
    normalizeChars (id ++ List.replicate k '/') = normalizeChars id := by
  obtain ⟨rest, rfl⟩ := List.head?_eq_some_iff.1 h
  have hd : dropTrailing (· = '/') ('/' :: rest ++ List.replicate k '/') =
      dropTrailing (· = '/') ('/' :: rest) :=
    dropTrailing_append_of_all (by simp +contextual) _
  rw [normalizeChars, hd, normalizeChars]
  rfl

/-- A text behind an id that does not end with a slash is trimmed by itself. -/
theorem normalizeChars_append_of_getLast? {id : List Char} {c : Char}
    (h : id.getLast? = some c) (hc : c ≠ '/') (t : List Char) :
    normalizeChars (id ++ t) = id ++ dropTrailing (· = '/') t := by
  have hd : dropTrailing (· = '/') (id ++ t) = id ++ dropTrailing (· = '/') t :=
    dropTrailing_append_of_getLast? h (by simpa using hc) t
  rw [normalizeChars_of_ne_nil, hd]
  rw [hd]
  intro hn
  rw [(List.append_eq_nil_iff.1 hn).1] at h
  cases h

end ObjectId

end Mediatheque
