import Mathlib.Data.List.TakeWhile
import Mathlib.Logic.Basic
import Mediatheque.Proofs.Json.Numbers
import Mediatheque.Proofs.Json.Texts

/-!
# Reading values

What is read as a value is a text, a list, an object or a word, behind blanks (`readValue_cases`),
and a word is one of three or a number (`readWord_cases`). Conversely, a value is read by what it
starts with (`readValue_forms`): a text between its quotes (`readValue_of_body`), and a number as
far as it is spelled (`readWord_of_spells`).
-/

namespace Mediatheque

namespace Json

variable {c : Char} {g s r rest w : List Char} {fuel : Nat} {v : Json}

/-! ## Blanks -/

theorem skipBlank_append (hg : Gap g) (t : List Char) : skipBlank (g ++ t) = skipBlank t :=
  List.dropWhile_append_of_pos hg

theorem skipBlank_cons (hc : ¬isBlank c) (t : List Char) : skipBlank (c :: t) = c :: t :=
  List.dropWhile_cons_of_neg hc

theorem exists_gap (s : List Char) : ∃ g, s = g ++ skipBlank s ∧ Gap g :=
  ⟨s.takeWhile isBlank, List.takeWhile_append_dropWhile.symm, fun _ => List.mem_takeWhile_imp⟩

theorem gap_iff : Gap g ↔ skipBlank g = [] := by
  rw [skipBlank, List.dropWhile_eq_nil_iff, Gap]

/-! ## Words -/

/-- The value of a number is an integer or a floating-point number. -/
theorem value?_cases {t : NumberText} (h : t.value? = some v) :
    (∃ i, v = .int i) ∨ ∃ x, v = .float x := by
  rw [NumberText.value?] at h
  rcases ite_eq_iff.1 h with ⟨-, h⟩ | ⟨-, h⟩
  · exact .inl ⟨_, (Option.some.inj h).symm⟩
  · obtain ⟨x, -, rfl⟩ := Option.map_eq_some_iff.1 h
    exact .inr ⟨x, rfl⟩

/-- A word is one of three, or a number. -/
theorem readWord_cases (h : readWord s = some (v, r)) :
    (s = ['t', 'r', 'u', 'e'] ++ r ∧ v = .bool true) ∨
      (s = ['f', 'a', 'l', 's', 'e'] ++ r ∧ v = .bool false) ∨ v = .null ∨
      ∃ w t, s = w ++ r ∧ SpellsNumber w t ∧ t.value? = some v := by
  unfold readWord at h
  split at h
  · cases h
    exact .inl ⟨rfl, rfl⟩
  · cases h
    exact .inr (.inl ⟨rfl, rfl⟩)
  · cases h
    exact .inr (.inr (.inl rfl))
  · obtain ⟨⟨t, r'⟩, hread, h⟩ := Option.bind_eq_some_iff.1 h
    obtain ⟨v', hv, h⟩ := Option.bind_eq_some_iff.1 h
    cases h
    obtain ⟨w, rfl, hw⟩ := exists_spellsNumber_of_read hread
    exact .inr (.inr (.inr ⟨w, t, rfl, hw, hv⟩))

/-- A number starts with a digit or a minus sign. -/
theorem SpellsNumber.exists_cons {t : NumberText} (h : SpellsNumber w t) :
    ∃ c u, w = c :: u ∧ (isDigit c ∨ c = '-') := by
  cases h with
  | @intro negative w f e whole fraction exponent hw hf he =>
    cases negative with
    | true => exact ⟨'-', _, rfl, .inr rfl⟩
    | false =>
      obtain ⟨c, u, rfl, hc⟩ := hw.digits.exists_cons hw.ne_nil
      exact ⟨c, _, rfl, .inl hc⟩

theorem readWord_of_spells {t : NumberText} (h : SpellsNumber w t)
    (hv : t.value? = some v) (hrest : EndsNumber rest) :
    readWord (w ++ rest) = some (v, rest) := by
  have hread := readNumberText_of_spells h hrest
  obtain ⟨c, u, rfl, hc⟩ := h.exists_cons
  unfold readWord
  split
  next heq => exact absurd ((List.cons.inj heq).1 ▸ hc) (by decide)
  next heq => exact absurd ((List.cons.inj heq).1 ▸ hc) (by decide)
  next heq => exact absurd ((List.cons.inj heq).1 ▸ hc) (by decide)
  next => simp only [hread, hv, Option.bind_eq_bind, Option.bind_some]

/-! ## Values -/

/-- A value is a text, a list, an object or a word. -/
theorem readValue_cases (h : readValue fuel s = some (v, r)) :
    ∃ g u, s = g ++ u ∧ Gap g ∧
      ((∃ w t, u = '"' :: (w ++ '"' :: r) ∧ Body w t ∧ v = .str (String.ofList t)) ∨
        (∃ g', u = '[' :: (g' ++ ']' :: r) ∧ Gap g' ∧ v = .arr []) ∨
        (∃ g' u' fuel' vs, u = '[' :: (g' ++ u') ∧ Gap g' ∧ v = .arr vs ∧
          readItems fuel' u' = some (vs, r)) ∨
        (∃ fields, v = .obj fields) ∨ readWord u = some (v, r)) := by
  cases fuel with
  | zero => cases h
  | succ fuel =>
    obtain ⟨g, hs, hg⟩ := exists_gap s
    refine ⟨g, skipBlank s, hs, hg, ?_⟩
    rw [readValue] at h
    split at h
    next u heq =>
      obtain ⟨⟨t, r'⟩, hread, h⟩ := Option.map_eq_some_iff.1 h
      cases h
      obtain ⟨w, rfl, hw⟩ := exists_body_of_readString hread
      exact .inl ⟨w, t, heq, hw, rfl⟩
    next u heq =>
      obtain ⟨g', hu, hg'⟩ := exists_gap u
      split at h
      next r' hclose =>
        cases h
        rw [hclose] at hu
        exact .inr (.inl ⟨g', by rw [heq, ← hu], hg', rfl⟩)
      next =>
        obtain ⟨⟨vs, r'⟩, hread, h⟩ := Option.map_eq_some_iff.1 h
        cases h
        exact .inr (.inr (.inl ⟨g', skipBlank u, fuel, vs, by rw [heq, ← hu], hg', rfl, hread⟩))
    next u heq =>
      split at h
      next =>
        cases h
        exact .inr (.inr (.inr (.inl ⟨_, rfl⟩)))
      next =>
        obtain ⟨⟨fs, r'⟩, hread, h⟩ := Option.map_eq_some_iff.1 h
        cases h
        exact .inr (.inr (.inr (.inl ⟨_, rfl⟩)))
    next => exact .inr (.inr (.inr (.inr h)))

/-- What a value is read as behind blanks goes by what it starts with. -/
theorem readValue_forms (hg : Gap g) (fuel : Nat) :
    (∀ t, readValue (fuel + 1) (g ++ '"' :: t) =
      (readString t).map fun p => (.str (String.ofList p.1), p.2)) ∧
    (∀ g' t, Gap g' → readValue (fuel + 1) (g ++ '[' :: (g' ++ ']' :: t)) = some (.arr [], t)) ∧
    (∀ g' c t, Gap g' → ¬isBlank c → c ≠ ']' →
      readValue (fuel + 1) (g ++ '[' :: (g' ++ c :: t)) =
        (readItems fuel (c :: t)).map fun p => (.arr p.1, p.2)) ∧
    ∀ c t, ¬isBlank c → c ≠ '"' ∧ c ≠ '[' ∧ c ≠ '\x7b' →
      readValue (fuel + 1) (g ++ c :: t) = readWord (c :: t) := by
  refine ⟨fun t => ?_, fun g' t hg' => ?_, fun g' c t hg' hc hclose => ?_,
    fun c t hc ⟨hquote, hbracket, hbrace⟩ => ?_⟩
  · rw [readValue, skipBlank_append hg, skipBlank_cons (by decide)]
    rfl
  · rw [readValue, skipBlank_append hg, skipBlank_cons (by decide)]
    simp only [skipBlank_append hg', skipBlank_cons (show ¬isBlank ']' by decide)]
  · rw [readValue, skipBlank_append hg, skipBlank_cons (by decide)]
    simp only [skipBlank_append hg', skipBlank_cons hc]
    split
    next heq => exact absurd (List.cons.inj heq).1 hclose
    next => rfl
  · rw [readValue, skipBlank_append hg, skipBlank_cons hc]
    split
    next heq => exact absurd (List.cons.inj heq).1 hquote
    next heq => exact absurd (List.cons.inj heq).1 hbracket
    next heq => exact absurd (List.cons.inj heq).1 hbrace
    next => rfl

theorem readValue_of_body {t : List Char} (hg : Gap g) (hw : Body w t) :
    readValue (fuel + 1) (g ++ '"' :: (w ++ '"' :: rest)) =
      some (.str (String.ofList t), rest) := by
  rw [(readValue_forms hg fuel).1, readString_of_body hw, Option.map_some]

theorem write_str (s : String) :
    write (.str s) = '"' :: (s.toList.flatMap escapeChar ++ ['"']) := by
  rw [write, quote]

/-- A text that is written is read back. -/
theorem read?_text_str (s : String) : read? (str s).text = some (.str s) := by
  have hread (fuel : Nat) : readValue (fuel + 1) (write (.str s)) = some (.str s, []) := by
    rw [← List.nil_append (write (.str s)), write_str,
      readValue_of_body gap_nil (body_flatMap_escapeChar s.toList), String.ofList_toList]
  simp only [read?, readChars?, text, String.toList_ofList, hread, Option.bind_eq_bind,
    Option.bind_some, skipBlank, List.dropWhile_nil, List.isEmpty_nil, if_true]

/-- Behind an item of a list stands a comma and another, or the closing bracket. -/
theorem readItems_cases {vs : List Json} (h : readItems (fuel + 1) s = some (vs, r)) :
    ∃ v g u, readValue fuel s = some (v, g ++ u) ∧ Gap g ∧
      ((∃ u' us, u = ',' :: u' ∧ readItems fuel u' = some (us, r) ∧ vs = v :: us) ∨
        (u = ']' :: r ∧ vs = [v])) := by
  rw [readItems] at h
  obtain ⟨⟨v, r'⟩, hread, h⟩ := Option.bind_eq_some_iff.1 h
  obtain ⟨g, hr', hg⟩ := exists_gap r'
  refine ⟨v, g, skipBlank r', by rw [hread, ← hr'], hg, ?_⟩
  dsimp only at h
  split at h
  next u heq =>
    obtain ⟨⟨us, r''⟩, hmore, h⟩ := Option.map_eq_some_iff.1 h
    cases h
    exact .inl ⟨u, us, heq, hmore, rfl⟩
  next u heq =>
    cases h
    exact .inr ⟨heq, rfl⟩
  next => cases h

end Json

end Mediatheque
