/-!
# Fields of a text

* `splitAt`: the parts of a text between separators, empty ones included;
* `joinWith`: parts with a text between them.
-/

namespace Mediatheque

/-- The parts of a list between the items that satisfy a test, empty ones included. -/
def splitAt {α : Type} (test : α → Bool) : List α → List (List α)
  | [] => [[]]
  | a :: rest =>
    match splitAt test rest with
    | [] => [[a]]
    | part :: parts => if test a then [] :: part :: parts else (a :: part) :: parts

/-- Parts with a separator between them. -/
def joinWith {α : Type} (separator : List α) : List (List α) → List α
  | [] => []
  | [part] => part
  | part :: rest => part ++ separator ++ joinWith separator rest

theorem splitAt_ne_nil {α : Type} (test : α → Bool) (l : List α) : splitAt test l ≠ [] := by
  induction l with
  | nil => simp [splitAt]
  | cons a rest ih =>
    rw [splitAt]
    split
    · simp
    · split <;> simp

/-- The parts on both sides of a separator. -/
theorem splitAt_append_cons {α : Type} {test : α → Bool} {a : α} (ha : test a = true)
    (l rest : List α) : splitAt test (l ++ a :: rest) = splitAt test l ++ splitAt test rest := by
  induction l with
  | nil =>
    obtain ⟨part, parts, hr⟩ := List.exists_cons_of_ne_nil (splitAt_ne_nil test rest)
    simp [splitAt, hr, ha]
  | cons b l ih =>
    obtain ⟨part, parts, hl⟩ := List.exists_cons_of_ne_nil (splitAt_ne_nil test l)
    rw [List.cons_append, splitAt, splitAt, ih, hl]
    cases test b <;> simp

end Mediatheque
