import Mediatheque.Proofs.Json.Spelling

/-!
# Reading numbers

A number is read part by part, each as far as it goes. What is read is a spelling
(`exists_spellsNumber_of_read`), and every spelling is read to its end if nothing stands behind it
that could belong to it (`readNumberText_of_spells`).
-/

namespace Mediatheque

namespace Json

variable {c : Char} {negative : Bool} {w r s rest : List Char} {ds : List Nat}

/-- A text does not go on with what could belong to a number. -/
def EndsNumber (rest : List Char) : Prop :=
  ∀ c ∈ rest.head?, ¬isDigit c ∧ c ≠ '.' ∧ c ≠ 'e' ∧ c ≠ 'E'

/-! ## Digits -/

theorem Digits.exists_cons (h : Digits w ds) (hne : ds ≠ []) :
    ∃ c t, w = c :: t ∧ isDigit c := by
  cases h with
  | nil => exact absurd rfl hne
  | cons hd h => exact ⟨_, _, rfl, by rw [isDigit, hd]; rfl⟩

theorem spanDigits_append (h : Digits w ds) (hrest : ∀ c ∈ rest.head?, ¬isDigit c) :
    spanDigits (w ++ rest) = (ds, rest) := by
  induction h with
  | nil =>
    cases rest with
    | nil => rfl
    | cons c rest =>
      have hc : decimalDigit? c = none := by simpa [isDigit] using hrest c rfl
      simp only [List.nil_append, spanDigits, hc]
  | cons hd h ih => simp only [List.cons_append, spanDigits, hd, ih]

theorem exists_digits_of_spanDigits (h : spanDigits s = (ds, r)) :
    ∃ w, s = w ++ r ∧ Digits w ds := by
  induction s generalizing ds with
  | nil =>
    cases h
    exact ⟨[], rfl, .nil⟩
  | cons c s ih =>
    rw [spanDigits] at h
    split at h
    next d hd =>
      have hspan : spanDigits s = ((spanDigits s).1, r) := by
        cases h
        rfl
      obtain ⟨w, hw, hdigits⟩ := ih hspan
      cases h
      exact ⟨c :: w, by rw [List.cons_append, ← hw], .cons hd hdigits⟩
    next =>
      cases h
      exact ⟨[], rfl, .nil⟩

/-! ## Fractions -/

theorem readFraction_append {f : List Char} {fraction : Option (List Nat)}
    (h : Fraction f fraction) (hrest : ∀ c ∈ rest.head?, ¬isDigit c ∧ c ≠ '.') :
    readFraction (f ++ rest) = some (fraction, rest) := by
  cases h with
  | absent =>
    rw [List.nil_append]
    unfold readFraction
    split
    · exact absurd rfl (hrest '.' rfl).2
    · rfl
  | @digits w ds hw hne =>
    rw [List.cons_append, readFraction, spanDigits_append hw fun c hc => (hrest c hc).1]
    obtain ⟨d, ds, rfl⟩ := List.exists_cons_of_ne_nil hne
    rfl

theorem exists_fraction_of_read {fraction : Option (List Nat)}
    (h : readFraction s = some (fraction, r)) : ∃ f, s = f ++ r ∧ Fraction f fraction := by
  unfold readFraction at h
  split at h
  next s =>
    split at h
    next => cases h
    next ds r' hne hspan =>
      cases h
      obtain ⟨w, rfl, hw⟩ := exists_digits_of_spanDigits hspan
      exact ⟨'.' :: w, rfl, .digits hw hne⟩
  next =>
    cases h
    exact ⟨[], rfl, .absent⟩

/-! ## Exponents -/

theorem readExponentDigits_append (negative : Bool) (hw : Digits w ds) (hne : ds ≠ [])
    (hrest : ∀ c ∈ rest.head?, ¬isDigit c) :
    readExponentDigits negative (w ++ rest) =
      some (some (if negative then -(numberOf 10 ds : Int) else numberOf 10 ds), rest) := by
  rw [readExponentDigits, spanDigits_append hw hrest]
  obtain ⟨d, ds, rfl⟩ := List.exists_cons_of_ne_nil hne
  rfl

theorem exists_exponent_of_readDigits {mark : Char} {sign : List Char} {exponent : Option Int}
    (hmark : mark = 'e' ∨ mark = 'E') (hsign : ExponentSign sign negative)
    (h : readExponentDigits negative s = some (exponent, r)) :
    ∃ e, mark :: (sign ++ s) = e ++ r ∧ Exponent e exponent := by
  unfold readExponentDigits at h
  split at h
  next => cases h
  next ds r' hne hspan =>
    cases h
    obtain ⟨w, rfl, hw⟩ := exists_digits_of_spanDigits hspan
    exact ⟨mark :: (sign ++ w), by simp, .digits hmark hsign hw hne⟩

theorem readExponent_of_ne {mark d : Char} (hmark : mark = 'e' ∨ mark = 'E') (hminus : d ≠ '-')
    (hplus : d ≠ '+') (t : List Char) :
    readExponent (mark :: d :: t) = readExponentDigits false (d :: t) := by
  rcases hmark with rfl | rfl
  all_goals
    rw [readExponent]
    · exact fun _ heq => hminus (List.cons.inj heq).1
    · exact fun _ heq => hplus (List.cons.inj heq).1

theorem readExponent_append {e : List Char} {exponent : Option Int} (h : Exponent e exponent)
    (hrest : EndsNumber rest) : readExponent (e ++ rest) = some (exponent, rest) := by
  cases h with
  | absent =>
    cases rest with
    | nil => rfl
    | cons c rest =>
      obtain ⟨-, -, he, hE⟩ := hrest c rfl
      rw [List.nil_append, readExponent]
      all_goals exact fun _ heq => absurd (List.cons.inj heq).1 (by assumption)
  | @digits mark sign w negative ds hmark hsign hw hne =>
    have hread := readExponentDigits_append negative hw hne fun c hc => (hrest c hc).1
    cases hsign with
    | absent =>
      obtain ⟨d, t, rfl, hd⟩ := hw.exists_cons hne
      have hminus : d ≠ '-' := by
        rintro rfl
        cases hd
      have hplus : d ≠ '+' := by
        rintro rfl
        cases hd
      rw [List.nil_append]
      exact (readExponent_of_ne hmark hminus hplus (t ++ rest)).trans hread
    | plus => rcases hmark with rfl | rfl <;> exact hread
    | minus => rcases hmark with rfl | rfl <;> exact hread

theorem exists_exponent_of_read {exponent : Option Int}
    (h : readExponent s = some (exponent, r)) : ∃ e, s = e ++ r ∧ Exponent e exponent := by
  unfold readExponent at h
  split at h
  · exact exists_exponent_of_readDigits (.inl rfl) .minus h
  · exact exists_exponent_of_readDigits (.inr rfl) .minus h
  · exact exists_exponent_of_readDigits (.inl rfl) .plus h
  · exact exists_exponent_of_readDigits (.inr rfl) .plus h
  · exact exists_exponent_of_readDigits (.inl rfl) .absent h
  · exact exists_exponent_of_readDigits (.inr rfl) .absent h
  · cases h
    exact ⟨[], rfl, .absent⟩

/-! ## Numbers -/

/-- Neither a fraction nor an exponent goes on with what could belong to the part before it. -/
theorem Exponent.not_isDigit {e : List Char} {exponent : Option Int} (h : Exponent e exponent)
    (hrest : EndsNumber rest) : ∀ c ∈ (e ++ rest).head?, ¬isDigit c ∧ c ≠ '.' := by
  cases h with
  | absent => exact fun c hc => ⟨(hrest c hc).1, (hrest c hc).2.1⟩
  | digits hmark =>
    rintro c hc
    cases hc
    rcases hmark with rfl | rfl <;> decide

theorem Fraction.not_isDigit {f t : List Char} {fraction : Option (List Nat)}
    (h : Fraction f fraction) (ht : ∀ c ∈ t.head?, ¬isDigit c ∧ c ≠ '.') :
    ∀ c ∈ (f ++ t).head?, ¬isDigit c := by
  cases h with
  | absent => exact fun c hc => (ht c hc).1
  | digits =>
    rintro c hc
    cases hc
    decide

theorem readUnsigned_append (negative : Bool) {f e : List Char} {whole : List Nat}
    {fraction : Option (List Nat)} {exponent : Option Int} (hw : Whole w whole)
    (hf : Fraction f fraction) (he : Exponent e exponent) (hrest : EndsNumber rest) :
    readUnsigned negative (w ++ (f ++ (e ++ rest))) =
      some (⟨negative, whole, fraction, exponent⟩, rest) := by
  have hdot := he.not_isDigit hrest
  rw [readUnsigned, spanDigits_append hw.digits (hf.not_isDigit hdot)]
  split
  next heq => exact absurd (Prod.mk.inj heq).1 hw.ne_nil
  next heq =>
    obtain ⟨hwhole, -⟩ := Prod.mk.inj heq
    have hzero := hw.leading (by rw [hwhole]; rfl)
    rw [hwhole] at hzero
    cases hzero
  next heq =>
    obtain ⟨rfl, rfl⟩ := Prod.mk.inj heq
    simp only [readFraction_append hf hdot, readExponent_append he hrest, Option.bind_eq_bind,
      Option.bind_some]

theorem exists_of_readUnsigned {t : NumberText} (h : readUnsigned negative s = some (t, r)) :
    ∃ w f e whole fraction exponent, s = w ++ (f ++ (e ++ r)) ∧ Whole w whole ∧
      Fraction f fraction ∧ Exponent e exponent ∧ t = ⟨negative, whole, fraction, exponent⟩ := by
  unfold readUnsigned at h
  split at h
  next => cases h
  next => cases h
  next whole r' hne hzero hspan =>
    obtain ⟨w, rfl, hw⟩ := exists_digits_of_spanDigits hspan
    obtain ⟨⟨fraction, r₁⟩, hfraction, h⟩ := Option.bind_eq_some_iff.1 h
    obtain ⟨⟨exponent, r₂⟩, hexponent, h⟩ := Option.bind_eq_some_iff.1 h
    cases h
    obtain ⟨f, rfl, hf⟩ := exists_fraction_of_read hfraction
    obtain ⟨e, rfl, he⟩ := exists_exponent_of_read hexponent
    refine ⟨w, f, e, whole, fraction, exponent, rfl, ⟨hw, hne, fun hhead => ?_⟩, hf, he, rfl⟩
    obtain ⟨ds, rfl⟩ := List.head?_eq_some_iff.1 hhead
    cases ds with
    | nil => rfl
    | cons d ds => exact absurd rfl (hzero d ds)

theorem readNumberText_of_ne (hc : c ≠ '-') (t : List Char) :
    readNumberText (c :: t) = readUnsigned false (c :: t) := by
  rw [readNumberText]
  exact fun _ heq => hc (List.cons.inj heq).1

/-- Every spelling of a number is read as the number, up to what does not belong to it. -/
theorem readNumberText_of_spells {t : NumberText} (h : SpellsNumber w t)
    (hrest : EndsNumber rest) : readNumberText (w ++ rest) = some (t, rest) := by
  cases h with
  | @intro negative w f e whole fraction exponent hw hf he =>
    have hread := readUnsigned_append negative hw hf he hrest
    cases negative with
    | true =>
      simp only [if_true, List.cons_append, List.nil_append, List.append_assoc]
      exact hread
    | false =>
      obtain ⟨c, t, rfl, hc⟩ := hw.digits.exists_cons hw.ne_nil
      have hminus : c ≠ '-' := by
        rintro rfl
        cases hc
      simp only [Bool.false_eq_true, if_false, List.nil_append, List.append_assoc]
      exact (readNumberText_of_ne hminus _).trans hread

/-- What is read as a number is a spelling of it. -/
theorem exists_spellsNumber_of_read {t : NumberText} (h : readNumberText s = some (t, r)) :
    ∃ w, s = w ++ r ∧ SpellsNumber w t := by
  unfold readNumberText at h
  split at h
  next s =>
    obtain ⟨w, f, e, whole, fraction, exponent, rfl, hw, hf, he, rfl⟩ := exists_of_readUnsigned h
    exact ⟨_, by simp, .intro hw hf he⟩
  next =>
    obtain ⟨w, f, e, whole, fraction, exponent, rfl, hw, hf, he, rfl⟩ := exists_of_readUnsigned h
    exact ⟨_, by simp, .intro hw hf he⟩

/-- A number without a fraction and an exponent is an integer, if 64 bits hold it. -/
theorem value?_of_integer {i : Int} (hmin : Int64.minValue.toInt ≤ i) (hmax : i < UInt64.size)
    (hvalue : numberOf 10 ds = i.natAbs) :
    NumberText.value? ⟨decide (i < 0), ds, none, none⟩ = some (.int i) := by
  by_cases hi : i < 0
  · have hcond : i.natAbs ≠ 0 ∧ Int64.minValue.toInt ≤ -(i.natAbs : Int) := by omega
    have habs : -(i.natAbs : Int) = i := by omega
    simp only [NumberText.value?, hvalue, decide_eq_true hi, Option.isNone_none, if_true, true_and]
    rw [if_pos hcond, habs]
  · have hcond : i.natAbs < UInt64.size := by omega
    have habs : (i.natAbs : Int) = i := by omega
    simp only [NumberText.value?, hvalue, decide_eq_false hi, Option.isNone_none,
      Bool.false_eq_true, if_false, true_and]
    rw [if_pos hcond, habs]

end Json

end Mediatheque
