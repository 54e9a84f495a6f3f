import Mediatheque.Proofs.Json.Values
import Mediatheque.Proofs.Media.Lossless

/-!
# Names of classes

Names and classes are given by two tables of opposite directions, `MediaClass.name` and
`MediaClass.parse`. Each undoes the other: every text is the name of the class that it gives
(`name_parse`), and every class is given by its name unless it is kept by a name of the table
(`parse_name_iff`). All other ways from a text to a class and back are these two
(`parse_eq_ofName`, `ofText_eq_parse`, `intoText_eq_name`), in JSON as well (`ofJson?_eq_some_iff`,
`read?_text_toJson`).
-/

namespace Mediatheque

namespace MediaClass

variable {c c' : MediaClass}

/-! ## The two tables -/

theorem name_parse (s : String) : (parse s).name = s := by
  unfold parse
  split <;> rfl

theorem parse_name_of_mem : ∀ c ∈ known, parse c.name = c := by decide

/-- No class is missing among the known ones. -/
theorem mem_known_iff : c ∈ known ↔ c.isOther = false := by
  refine ⟨isOther_of_mem_known c, fun h => ?_⟩
  cases c with
  | other s => cases h
  | _ => decide

/-- A class that is kept by a name of its own. -/
theorem reduced_iff :
    c.Reduced ↔ ∀ t, c = other t → ∀ k : MediaClass, k.isOther = false → k.name ≠ t := by
  constructor
  · rintro h t rfl k hk rfl
    exact h k (mem_known_iff.2 hk) rfl
  · rintro h k hk rfl
    exact h k.name rfl k (isOther_of_mem_known k hk) rfl

/-- The table gives no class by the name of another. -/
theorem reduced_parse (s : String) : (parse s).Reduced := by
  intro k hk h
  have hname : s = k.name := by rw [← name_parse s, h, name]
  rw [hname, parse_name_of_mem k hk] at h
  have hother := isOther_of_mem_known k hk
  rw [h] at hother
  cases hother

theorem parse_eq_ofName (s : String) : parse s = ofName s := by
  rw [← ofName_name (reduced_parse s), name_parse]

theorem parse_name_iff : parse c.name = c ↔ c.Reduced := by
  refine ⟨fun h => h ▸ reduced_parse c.name, fun h => ?_⟩
  rw [parse_eq_ofName, ofName_name h]

/-- Classes that are told apart have different names. -/
theorem name_injective (hc : c.Reduced) (hc' : c'.Reduced) (h : c.name = c'.name) : c = c' := by
  rw [← parse_name_iff.2 hc, h, parse_name_iff.2 hc']

/-! ## Other ways from a text to a class and back -/

theorem ofText_eq_parse (s : String) : ofText s = parse s := by
  unfold ofText
  split
  next t h =>
    have ht := name_parse s
    rw [h, name] at ht
    rw [h, ht]
  next => rfl

theorem intoText_eq_name (c : MediaClass) : c.intoText = c.name := by cases c <;> rfl

/-- A class is read from texts only, from each the class that it names. -/
theorem ofJson?_eq_some_iff {v : Json} : ofJson? v = some c ↔ ∃ s, v = .str s ∧ c = parse s := by
  constructor
  · intro h
    obtain ⟨s, hs, rfl⟩ := Option.map_eq_some_iff.1 h
    cases v <;> cases hs
    exact ⟨s, rfl, (parse_eq_ofName s).symm⟩
  · rintro ⟨s, rfl, rfl⟩
    rw [parse_eq_ofName]
    rfl

theorem read?_text_toJson (c : MediaClass) : Json.read? c.toJson.text = some (.str c.name) :=
  Json.read?_text_str c.name

end MediaClass

end Mediatheque
