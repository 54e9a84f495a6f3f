import Mediatheque.Toml.Reader

/-!
# Reading integers

The decimal text of an integer is read as the integer (`readScalar_intText`). Dates, times and
numbers with a point are tried before, but each of them has a mark behind its first digits, and
the line of an integer ends there.
-/

namespace Mediatheque

/-! ## Decimal digits -/

/-- The digits of a number, without a zero in front of another digit. -/
structure Decimal (n : Nat) (digits : List Nat) : Prop where
  ne_nil : digits ≠ []
  lt : ∀ d ∈ digits, d < 10
  value : numberOf 10 digits = n
  leading : digits.head? = some 0 → digits = [0]

theorem natText_eq (n : Nat) :
    ∃ digits, natText n = digits.map Nat.digitChar ∧ Decimal n digits := by
  induction n using Nat.strongRecOn with
  | _ n ih =>
    by_cases hn : n < 10
    · refine ⟨[n], Nat.toDigits_of_lt_base hn, List.cons_ne_nil _ _, ?_, ?_, ?_⟩
      · simpa using hn
      · simp [numberOf]
      · simp
    · obtain ⟨digits, htext, hdigits⟩ := ih (n / 10) (by omega)
      refine ⟨digits ++ [n % 10], ?_, by simp, ?_, ?_, ?_⟩
      · rw [natText, Nat.toDigits_of_base_le (by decide) (by omega), ← natText, htext,
          List.map_append]
        rfl
      · intro d hd
        rcases List.mem_append.1 hd with hd | hd
        · exact hdigits.lt d hd
        · rw [List.mem_singleton.1 hd]
          omega
      · rw [numberOf, List.foldl_append, ← numberOf, hdigits.value]
        simp
        omega
      · intro hhead
        obtain ⟨d, ds, rfl⟩ := List.exists_cons_of_ne_nil hdigits.ne_nil
        have hvalue := hdigits.value
        rw [hdigits.leading hhead] at hvalue
        simp [numberOf] at hvalue
        omega

theorem decimalDigit?_digitChar : ∀ d < 10, decimalDigit? (Nat.digitChar d) = some d := by
  decide

theorem isDigit_digitChar {d : Nat} (hd : d < 10) : isDigit (Nat.digitChar d) := by
  rw [isDigit, decimalDigit?_digitChar d hd]
  rfl

/-- The text of a number starts with a digit, and with a zero only if it is the only one. -/
theorem exists_natText_cons (n : Nat) :
    ∃ c t, natText n = c :: t ∧ isDigit c ∧ (c = '0' → t = []) := by
  obtain ⟨digits, htext, hdigits⟩ := natText_eq n
  obtain ⟨d, ds, rfl⟩ := List.exists_cons_of_ne_nil hdigits.ne_nil
  refine ⟨Nat.digitChar d, ds.map Nat.digitChar, htext,
    isDigit_digitChar (hdigits.lt d List.mem_cons_self), fun hzero => ?_⟩
  rw [Nat.digitChar_eq_zero] at hzero
  have hds := hdigits.leading (by rw [hzero]; rfl)
  rw [(List.cons.inj hds).2]
  rfl

theorem isDigit_of_mem_natText {n : Nat} {c : Char} (h : c ∈ natText n) : isDigit c := by
  obtain ⟨digits, htext, hdigits⟩ := natText_eq n
  rw [htext] at h
  obtain ⟨d, hd, rfl⟩ := List.mem_map.1 h
  exact isDigit_digitChar (hdigits.lt d hd)

theorem isDigit_of_digitValues? {s : List Char} {values : List Nat}
    (h : digitValues? decimalDigit? s = some values) : ∀ c ∈ s, isDigit c := by
  induction s generalizing values with
  | nil => nofun
  | cons c s ih =>
    rw [digitValues?, List.mapM_cons, Option.bind_eq_bind, Option.bind_eq_some_iff] at h
    obtain ⟨d, hd, h⟩ := h
    rw [Option.bind_eq_bind, Option.bind_eq_some_iff] at h
    obtain ⟨ds, hds, -⟩ := h
    exact List.forall_mem_cons.2 ⟨by rw [isDigit, hd]; rfl, ih hds⟩

namespace Toml

variable {n : Nat} {c mark : Char} {s t u rest : List Char}

/-! ## Dates and times -/

theorem eq_append_of_readFixed {count v : Nat} (h : readFixed count s = some (v, t, u)) :
    s = t ++ u ∧ t.length = count ∧ ∀ c ∈ t, isDigit c := by
  rw [readFixed] at h
  split at h
  · contradiction
  · rename_i hlength
    simp only [Option.bind_eq_bind] at h
    obtain ⟨values, hvalues, h⟩ := Option.bind_eq_some_iff.1 h
    cases h
    exact ⟨(List.take_append_drop count s).symm, List.length_take_of_le (by omega),
      isDigit_of_digitValues? hvalues⟩

theorem readFixed_of_not_isDigit (count : Nat) (hc : ¬isDigit c) :
    readFixed (count + 1) (c :: s) = none := by
  rw [Option.eq_none_iff_forall_ne_some]
  rintro ⟨v, t, u⟩ h
  obtain ⟨heq, hlength, ht⟩ := eq_append_of_readFixed h
  obtain ⟨d, t, rfl⟩ := List.exists_cons_of_length_eq_add_one hlength
  exact hc ((List.cons.inj heq).1 ▸ ht d List.mem_cons_self)

/-- No mark stands behind a fixed number of digits, unless it stands behind all of them. -/
theorem expect_of_readFixed {count v : Nat} (hmark : ¬isDigit mark)
    (hs : (s.dropWhile isDigit).head? ≠ some mark) (h : readFixed count s = some (v, t, u)) :
    expect mark u = none := by
  obtain ⟨rfl, -, ht⟩ := eq_append_of_readFixed h
  rw [Option.eq_none_iff_forall_ne_some]
  intro w hw
  rw [expect, dropPrefix?_eq_some_iff, List.singleton_append] at hw
  rw [hw, List.dropWhile_append_of_pos ht, List.dropWhile_cons_of_neg hmark] at hs
  exact hs rfl

theorem readMoment_eq_none (hdate : (s.dropWhile isDigit).head? ≠ some '-')
    (htime : (s.dropWhile isDigit).head? ≠ some ':') : readMoment s = none := by
  have hd : readDate s = none := by
    rw [readDate]
    cases hf : readFixed 4 s with
    | none => rfl
    | some r =>
      simp only [Option.bind_eq_bind, Option.bind_some,
        expect_of_readFixed (by decide) hdate hf, Option.bind_none]
  have ht : readTime s = none := by
    rw [readTime]
    cases hf : readFixed 2 s with
    | none => rfl
    | some r =>
      simp only [Option.bind_eq_bind, Option.bind_some,
        expect_of_readFixed (by decide) htime hf, Option.bind_none]
  rw [readMoment, hd]
  exact ht

theorem readMoment_of_not_isDigit (hc : ¬isDigit c) : readMoment (c :: s) = none := by
  simp only [readMoment, readDate, readTime, readFixed_of_not_isDigit _ hc, Option.bind_eq_bind,
    Option.bind_none]

/-! ## Integers -/

theorem readDigits_of_not_isDigit (hrest : ∀ c ∈ rest.head?, ¬isDigit c) :
    readDigits decimalDigit? rest = none := by
  cases rest with
  | nil => rfl
  | cons c rest =>
    have hc : decimalDigit? c = none := by simpa [isDigit] using hrest c rfl
    rw [readDigits, hc]
    rfl

/-- The digits of a number are read up to the last of them. -/
theorem readDigits_map {digits : List Nat} (hne : digits ≠ []) (hlt : ∀ d ∈ digits, d < 10)
    (hrest : ∀ c ∈ rest.head?, ¬isDigit c ∧ c ≠ '_') :
    readDigits decimalDigit? (digits.map Nat.digitChar ++ rest) = some (digits, rest) := by
  induction digits with
  | nil => contradiction
  | cons d ds ih =>
    obtain ⟨hd, hds⟩ := List.forall_mem_cons.1 hlt
    rw [List.map_cons, List.cons_append, readDigits, decimalDigit?_digitChar d hd,
      Option.bind_eq_bind, Option.bind_some]
    split
    next r heq =>
      cases ds with
      | nil =>
        rw [List.map_nil, List.nil_append] at heq
        exact absurd rfl (hrest '_' (by rw [heq]; rfl)).2
      | cons e ds =>
        have he := isDigit_digitChar (hds e List.mem_cons_self)
        rw [List.map_cons, List.cons_append] at heq
        rw [(List.cons.inj heq).1] at he
        contradiction
    next =>
      cases ds with
      | nil =>
        have hnone := readDigits_of_not_isDigit fun c hc => (hrest c hc).1
        rw [List.map_nil, List.nil_append, hnone]
        exact if_neg (by
          cases rest with
          | nil => simp
          | cons c rest => simpa [isDigit] using (hrest c rfl).1)
      | cons e ds => rw [ih (List.cons_ne_nil _ _) hds]

theorem readWhole_natText (n : Nat) (rest : List Char)
    (hrest : ∀ c ∈ rest.head?, ¬isDigit c ∧ c ≠ '_') :
    ∃ digits, readWhole (natText n ++ rest) = some (digits, rest) ∧ numberOf 10 digits = n := by
  obtain ⟨digits, htext, hdigits⟩ := natText_eq n
  refine ⟨digits, ?_, hdigits.value⟩
  by_cases hzero : digits = [0]
  · rw [htext, hzero]
    rfl
  · rw [← readDigits_map hdigits.ne_nil hdigits.lt hrest, ← htext]
    unfold readWhole
    split
    next r heq =>
      obtain ⟨d, ds, rfl⟩ := List.exists_cons_of_ne_nil hdigits.ne_nil
      rw [htext, List.map_cons, List.cons_append] at heq
      have hd := Nat.digitChar_eq_zero.1 (List.cons.inj heq).1
      exact absurd (hdigits.leading (by rw [hd]; rfl)) hzero
    next => rfl

theorem readSign_of_isDigit (hc : isDigit c) : readSign (c :: s) = (false, c :: s) := by
  unfold readSign
  split
  next heq =>
    rw [(List.cons.inj heq).1] at hc
    contradiction
  next heq =>
    rw [(List.cons.inj heq).1] at hc
    contradiction
  next => rfl

theorem int64Of?_toInt (i : Int64) :
    int64Of? (decide (i.toInt < 0)) i.toInt.natAbs = some i := by
  have hi : (if decide (i.toInt < 0) then -(i.toInt.natAbs : Int) else i.toInt.natAbs) =
      i.toInt := by
    by_cases h : i.toInt < 0
    · rw [decide_eq_true h, if_pos rfl]
      omega
    · rw [decide_eq_false h, if_neg Bool.false_ne_true]
      omega
  rw [int64Of?]
  simp only [hi]
  rw [if_pos ⟨i.minValue_le_toInt, i.toInt_le⟩, Int64.ofInt_toInt]

/-- The text of an integer: the sign and the digits. -/
theorem intText_eq (i : Int) :
    intText i = (if i < 0 then ['-'] else []) ++ natText i.natAbs := by
  rw [intText]
  split
  · rfl
  · rw [List.nil_append, show i.toNat = i.natAbs by omega]

theorem readSign_intText (i : Int) :
    readSign (intText i ++ rest) = (decide (i < 0), natText i.natAbs ++ rest) := by
  rw [intText_eq]
  split
  next h =>
    rw [decide_eq_true h]
    rfl
  next h =>
    obtain ⟨c, t, htext, hc, -⟩ := exists_natText_cons i.natAbs
    rw [decide_eq_false h, htext, List.nil_append, List.cons_append, readSign_of_isDigit hc]

/-- The text of an integer starts with a digit or a minus sign, and with a zero only for zero. -/
theorem exists_intText_cons (i : Int) :
    ∃ c t, intText i = c :: t ∧ (isDigit c ∨ c = '-') ∧ (c = '0' → t = []) := by
  rw [intText_eq]
  split
  next => exact ⟨'-', _, rfl, .inr rfl, nofun⟩
  next =>
    obtain ⟨c, t, htext, hc, hzero⟩ := exists_natText_cons i.natAbs
    exact ⟨c, t, htext, .inl hc, hzero⟩

theorem first_of_intText {i : Int} (heq : intText i ++ rest = c :: u) : isDigit c ∨ c = '-' := by
  obtain ⟨d, t, htext, hd, -⟩ := exists_intText_cons i
  rw [htext, List.cons_append, List.cons.injEq] at heq
  exact heq.1 ▸ hd

/-- An integer without a prefix of another base is a sign and digits. -/
theorem readInteger_intText (i : Int64) :
    readInteger (intText i.toInt ++ '\n' :: rest) = some (i, '\n' :: rest) := by
  obtain ⟨digits, hwhole, hvalue⟩ := readWhole_natText i.toInt.natAbs
    ('\n' :: rest) (by simp; decide)
  have hbase : ∀ a u, intText i.toInt ++ '\n' :: rest = '0' :: a :: u → a = '\n' := by
    intro a u heq
    obtain ⟨c, t, htext, -, hzero⟩ := exists_intText_cons i.toInt
    rw [htext, List.cons_append, List.cons.injEq] at heq
    rw [hzero heq.1, List.nil_append, List.cons.injEq] at heq
    exact heq.2.1.symm
  unfold readInteger
  split
  next heq => exact absurd (hbase _ _ heq) (by decide)
  next heq => exact absurd (hbase _ _ heq) (by decide)
  next heq => exact absurd (hbase _ _ heq) (by decide)
  next =>
    rw [readSign_intText]
    simp only [hwhole, Option.bind_eq_bind, Option.bind_some, hvalue, int64Of?_toInt]

theorem readFiniteFloat_intText (i : Int) :
    readFiniteFloat (intText i ++ '\n' :: rest) = none := by
  obtain ⟨digits, hwhole, -⟩ := readWhole_natText i.natAbs
    ('\n' :: rest) (by simp; decide)
  have hfraction : readFraction ('\n' :: rest) = some (none, '\n' :: rest) := rfl
  have hexponent : readExponent ('\n' :: rest) = some (none, '\n' :: rest) := rfl
  rw [readFiniteFloat, readSign_intText]
  simp only [hwhole, hfraction, hexponent, Option.bind_eq_bind, Option.bind_some,
    Option.isNone_none, and_self, if_true, Option.bind_none]

theorem readFloat_intText (i : Int) : readFloat (intText i ++ '\n' :: rest) = none := by
  obtain ⟨c, t, htext, hc, -⟩ := exists_natText_cons i.natAbs
  rw [readFloat, readFiniteFloat_intText, readSign_intText, htext]
  dsimp only
  split
  next heq =>
    rw [(List.cons.inj heq).1] at hc
    contradiction
  next heq =>
    rw [(List.cons.inj heq).1] at hc
    contradiction
  next => rfl

theorem readMoment_intText (i : Int) : readMoment (intText i ++ '\n' :: rest) = none := by
  rw [intText_eq]
  split
  next => exact readMoment_of_not_isDigit (by decide)
  next =>
    have hbehind : (natText i.natAbs ++ '\n' :: rest).dropWhile isDigit = '\n' :: rest := by
      rw [List.dropWhile_append_of_pos fun c hc => isDigit_of_mem_natText hc]
      rfl
    rw [List.nil_append]
    apply readMoment_eq_none <;> (rw [hbehind]; simp)

/-- The text of an integer is read as the integer, and as nothing that is tried before. -/
theorem readScalar_intText (i : Int64) :
    readScalar (intText i.toInt ++ '\n' :: rest) = some (.integer i, '\n' :: rest) := by
  unfold readScalar
  split
  next heq => exact absurd (first_of_intText heq) (by decide)
  next heq => exact absurd (first_of_intText heq) (by decide)
  next heq => exact absurd (first_of_intText heq) (by decide)
  next heq => exact absurd (first_of_intText heq) (by decide)
  next =>
    rw [readMoment_intText, readFloat_intText, readInteger_intText]
    rfl

end Toml

end Mediatheque
