/-!
# Beginnings and ends of texts

* `dropPrefix?`: what follows a text at the start of another;
* `dropTrailing`: a list without the items at its end that satisfy a test;
* `startsWith`, `endsWith`, `containsText`: the same for strings.
-/

namespace Mediatheque

/-- What follows the first list at the start of the second, if it stands there. -/
def dropPrefix? {α : Type} [DecidableEq α] : List α → List α → Option (List α)
  | [], l => some l
  | _ :: _, [] => none
  | p :: ps, a :: l => if p = a then dropPrefix? ps l else none

theorem dropPrefix?_eq_some_iff {α : Type} [DecidableEq α] {p l r : List α} :
    dropPrefix? p l = some r ↔ l = p ++ r := by
  induction p generalizing l with
  | nil => simp [dropPrefix?]
  | cons x xs ih =>
    cases l with
    | nil => simp [dropPrefix?]
    | cons y ys =>
      by_cases h : x = y
      · simp [dropPrefix?, h, ih]
      · simp [dropPrefix?, h, Ne.symm h]

/-- A list without the items at its end that satisfy a test. -/
def dropTrailing {α : Type} (test : α → Bool) : List α → List α
  | [] => []
  | a :: l =>
    match dropTrailing test l with
    | [] => if test a then [] else [a]
    | kept => a :: kept

/-- Whether a list stands somewhere in another. -/
def isInfix {α : Type} [DecidableEq α] (p : List α) : List α → Bool
  | [] => p.isEmpty
  | a :: l => (dropPrefix? p (a :: l)).isSome || isInfix p l

def startsWith (s start : String) : Bool := (dropPrefix? start.toList s.toList).isSome

def endsWith (s ending : String) : Bool :=
  (dropPrefix? ending.toList.reverse s.toList.reverse).isSome

def containsText (s part : String) : Bool := isInfix part.toList s.toList

/-- What follows a text at the start of a string, if it stands there. -/
def afterPrefix? (start s : String) : Option String :=
  (dropPrefix? start.toList s.toList).map String.ofList

theorem afterPrefix?_eq_some_iff {start s rest : String} :
    afterPrefix? start s = some rest ↔ s = start ++ rest := by
  rw [afterPrefix?, Option.map_eq_some_iff]
  constructor
  · rintro ⟨l, h, rfl⟩
    refine String.toList_inj.1 ?_
    rw [dropPrefix?_eq_some_iff.1 h, String.toList_append, String.toList_ofList]
  · rintro rfl
    exact ⟨rest.toList, dropPrefix?_eq_some_iff.2 String.toList_append, String.ofList_toList⟩

theorem startsWith_iff {s start : String} :
    startsWith s start = true ↔ ∃ rest, s = start ++ rest := by
  have h : startsWith s start = (afterPrefix? start s).isSome := by
    rw [startsWith, afterPrefix?, Option.isSome_map]
  simp only [h, Option.isSome_iff_exists, afterPrefix?_eq_some_iff]

theorem endsWith_iff {s ending : String} :
    endsWith s ending = true ↔ ∃ start, s = start ++ ending := by
  rw [endsWith, Option.isSome_iff_exists]
  constructor
  · rintro ⟨l, h⟩
    refine ⟨String.ofList l.reverse, String.toList_inj.1 (List.reverse_inj.1 ?_)⟩
    rw [dropPrefix?_eq_some_iff.1 h, String.toList_append, String.toList_ofList,
      List.reverse_append, List.reverse_reverse]
  · rintro ⟨start, rfl⟩
    refine ⟨start.toList.reverse, dropPrefix?_eq_some_iff.2 ?_⟩
    rw [String.toList_append, List.reverse_append]

end Mediatheque
