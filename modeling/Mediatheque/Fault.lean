/-!
# Faults

Steps of a computation that have no result on some inputs: a position beyond
the end of a text or a list, a position inside a character, a sum beyond the
width of a number. A function that can meet one answers the fault in place of a
value, and a thread that meets one ends.
-/

namespace Mediatheque

/-- Why a step has no result. -/
inductive Fault where
  | outOfRange
  | insideCharacter
  | overflow
deriving DecidableEq, Inhabited

namespace Fault

variable {ε α β : Type} {x : Except ε α}

/-- Two steps have a result if the first has one and the second has one from there. -/
theorem bind_eq_ok_iff {f : α → Except ε β} {b : β} :
    x >>= f = .ok b ↔ ∃ a, x = .ok a ∧ f a = .ok b := by
  constructor
  · intro h
    cases x with
    | error fault => cases h
    | ok a => exact ⟨a, rfl, h⟩
  · rintro ⟨a, rfl, h⟩
    exact h

theorem map_eq_ok_iff {f : α → β} {b : β} : f <$> x = .ok b ↔ ∃ a, x = .ok a ∧ f a = b := by
  constructor
  · intro h
    cases x with
    | error fault => cases h
    | ok a => exact ⟨a, rfl, Except.ok.inj h⟩
  · rintro ⟨a, rfl, rfl⟩
    rfl

/-- Two steps of which the second always has a result meet the faults of the first. -/
theorem bind_ok_iff {f : α → Except ε β} (hf : ∀ a, ∃ b, f a = .ok b) :
    (∃ b, x >>= f = .ok b) ↔ ∃ a, x = .ok a := by
  simp only [bind_eq_ok_iff]
  constructor
  · rintro ⟨_, a, ha, -⟩
    exact ⟨a, ha⟩
  · rintro ⟨a, ha⟩
    obtain ⟨b, hb⟩ := hf a
    exact ⟨b, a, ha, hb⟩

end Fault

end Mediatheque
