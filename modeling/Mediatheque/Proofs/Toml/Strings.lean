import Mediatheque.Proofs.Toml.Spelling

/-!
# Reading texts and keys

Every spelling of a text is read as the text (`readString_of_spells`), and every spelling of a
key as the key (`readKey_of_spellsKey`). Between three quotes a run of quotes may belong to the text
in part, so the reader looks at the whole run: one within the text is too short to close it, and
one at its end closes it with its last three quotes (`Body.leading_quotes`).
-/

namespace Mediatheque

namespace Toml

variable {quote c : Char} {lines : Bool} {run fuel : Nat} {digits e t s rest : List Char}

/-- The characters that satisfy a test, up to one that does not. -/
theorem takeWhile_append_of_head? {p : Char → Bool} (ht : ∀ c ∈ t, p c)
    (hrest : ∀ c ∈ rest.head?, ¬p c) : (t ++ rest).takeWhile p = t := by
  rw [List.takeWhile_append_of_pos ht]
  cases rest with
  | nil => exact List.append_nil t
  | cons c rest => rw [List.takeWhile_cons_of_neg (hrest c rfl), List.append_nil]

/-! ## Escapes -/

theorem codedChar?_of_hexValue? (h : hexValue? digits = some c.toNat) :
    codedChar? digits = some c := by
  have hv : c.toNat.isValidChar := c.valid
  rw [codedChar?, ← hexValue?, h, Option.bind_eq_bind, Option.bind_some, dif_pos hv]
  rfl

theorem shortEscape?_letter {letter : Char} (h : shortEscape? letter = some c) :
    letter ∈ ['b', 't', 'n', 'f', 'r', '"', '\\'] := by
  unfold shortEscape? at h
  split at h
  all_goals first | contradiction | simp

theorem readEscape_append (h : Escapes e c) (rest : List Char) :
    readEscape (e ++ rest) = some (c, rest) := by
  cases h with
  | short h =>
    have hl := shortEscape?_letter h
    simp only [List.mem_cons, List.not_mem_nil, or_false] at hl
    rcases hl with rfl | rfl | rfl | rfl | rfl | rfl | rfl <;> cases h <;> rfl
  | four h =>
    simp only [List.cons_append, List.nil_append, readEscape, codedChar?_of_hexValue? h,
      Option.map_some]
  | eight h =>
    simp only [List.cons_append, List.nil_append, readEscape, codedChar?_of_hexValue? h,
      Option.map_some]

/-! ## Lines -/

theorem lineEnd?_of_ne {t : List Char} (hn : c ≠ '\n') (hr : c ≠ '\r') :
    lineEnd? (c :: t) = none := by
  unfold lineEnd?
  split
  · rename_i heq
    cases heq
    contradiction
  · rename_i heq
    cases heq
    contradiction
  · rfl

theorem lineEnd?_of_isPrintable {t : List Char} (h : isPrintable c) :
    lineEnd? (c :: t) = none := by
  refine lineEnd?_of_ne ?_ ?_ <;> (rintro rfl; cases h)

/-- A backslash before an escape does not end the line. -/
theorem continued?_of_escapes (h : Escapes e c) (rest : List Char) :
    continued? (e ++ rest) = none := by
  obtain ⟨letter, e', rfl, hb, hn, hr⟩ : ∃ letter e', e = letter :: e' ∧
      isBlank letter = false ∧ letter ≠ '\n' ∧ letter ≠ '\r' := by
    cases h with
    | short h =>
      have hl := shortEscape?_letter h
      simp only [List.mem_cons, List.not_mem_nil, or_false] at hl
      refine ⟨_, [], rfl, ?_⟩
      rcases hl with rfl | rfl | rfl | rfl | rfl | rfl | rfl <;> decide
    | four h => exact ⟨_, _, rfl, by decide⟩
    | eight h => exact ⟨_, _, rfl, by decide⟩
  rw [continued?, List.cons_append, skipBlank, List.dropWhile_cons_of_neg (by simp [hb]),
    lineEnd?_of_ne hn hr]
  rfl

/-! ## Texts on one line -/

theorem length_lt_append : t.length < (t ++ c :: rest).length + 1 := by
  rw [List.length_append]
  omega

theorem length_lt_of_escape (h : ('\\' :: (e ++ t)).length < fuel + 1) : t.length < fuel := by
  rw [List.length_cons, List.length_append] at h
  omega

theorem readBasic_of_body (h : Body '"' false run t s) (hf : t.length < fuel) :
    readBasic fuel (t ++ '"' :: rest) = some (s, rest) := by
  induction h generalizing fuel with
  | nil =>
    obtain ⟨fuel, rfl⟩ := Nat.exists_eq_add_of_lt hf
    rfl
  | plain hc hq hb h ih =>
    obtain _ | fuel := fuel
    · contradiction
    · rw [List.cons_append, readBasic, if_neg hq, if_neg (hb rfl), if_pos hc,
        ih (Nat.lt_of_succ_lt_succ hf)]
      rfl
  | escape hq he h ih =>
    obtain _ | fuel := fuel
    · contradiction
    · have hlength := length_lt_of_escape hf
      rw [List.cons_append, List.append_assoc, readBasic, if_neg (by decide), if_pos rfl,
        readEscape_append he]
      simp only [Option.bind_eq_bind, Option.bind_some, ih hlength, Option.map_some]
  | lineEnd hl => cases hl
  | quote hl => cases hl

theorem readLiteral_of_body (h : Body '\'' false run t s) :
    readLiteral (t ++ '\'' :: rest) = some (s, rest) := by
  induction h with
  | nil => rfl
  | plain hc hq hb h ih =>
    rw [List.cons_append, readLiteral, if_neg hq, if_pos hc, ih]
    rfl
  | escape hq => contradiction
  | lineEnd hl => cases hl
  | quote hl => cases hl

/-! ## Texts of several lines -/

/-- The quotes at the start of what is left of a text are all that is left of it, or too few to
close it. -/
theorem Body.leading_quotes (hq : IsQuote quote) (h : Body quote lines run t s) (hrun : run ≤ 2)
    (u : List Char) :
    (∃ n, n + run ≤ 2 ∧ t = List.replicate n quote ∧ s = List.replicate n quote) ∨
      ((t ++ u).takeWhile (· = quote)).length + run ≤ 2 := by
  induction h with
  | nil => exact .inl ⟨0, by omega, rfl, rfl⟩
  | plain hc hne => exact .inr (by simpa [hne] using hrun)
  | escape hq' => exact .inr (by simpa [hq'] using hrun)
  | lineEnd => exact .inr (by obtain rfl | rfl := hq <;> simpa using hrun)
  | quote hl hlt h ih =>
    rcases ih hlt with ⟨n, hn, rfl, rfl⟩ | h
    · exact .inl ⟨n + 1, by omega, rfl, rfl⟩
    · exact .inr (by simp; omega)

theorem closing?_of_few (h : (t.takeWhile (· = quote)).length ≤ 2) : closing? quote t = none :=
  if_pos (by omega)

theorem closing?_replicate {n : Nat} (hn : n ≤ 2) (hrest : rest.head? ≠ some quote) :
    closing? quote (List.replicate n quote ++ quote :: quote :: quote :: rest) =
      some (List.replicate n quote, rest) := by
  have hrun : ((List.replicate n quote ++ quote :: quote :: quote :: rest).takeWhile
      (· = quote)).length = n + 3 := by
    have happend : List.replicate n quote ++ quote :: quote :: quote :: rest =
        List.replicate (n + 3) quote ++ rest := by simp [List.replicate_succ']
    rw [happend, takeWhile_append_of_head? (by simp), List.length_replicate]
    intro c hc heq
    exact hrest (of_decide_eq_true heq ▸ hc)
  rw [closing?, hrun, if_neg (by omega), Nat.min_eq_left (by omega), Nat.add_sub_cancel]
  simp [List.drop_append]

theorem closing?_three (hrest : rest.head? ≠ some quote) :
    closing? quote (quote :: quote :: quote :: rest) = some ([], rest) :=
  closing?_replicate (n := 0) (by decide) hrest

/-- The quotes at the start of what is left of a text close it with nothing left, or not at all. -/
theorem Body.closing?_cases (hq : IsQuote quote) (h : Body quote lines run t s) (hrun : run ≤ 2)
    (hrest : rest.head? ≠ some quote) :
    closing? quote (t ++ quote :: quote :: quote :: rest) = some (s, rest) ∨
      closing? quote (t ++ quote :: quote :: quote :: rest) = none := by
  rcases h.leading_quotes hq hrun (quote :: quote :: quote :: rest) with
    ⟨n, hn, rfl, rfl⟩ | hfew
  · exact .inl (closing?_replicate (by omega) hrest)
  · exact .inr (closing?_of_few (Nat.le_trans (Nat.le_add_right _ _) hfew))

theorem closing?_of_ne (h : c ≠ quote) : closing? quote (c :: t) = none :=
  closing?_of_few (by simp [h])

theorem readBasicLines_of_body (h : Body '"' true run t s) (hrun : run ≤ 2)
    (hf : t.length < fuel) (hrest : rest.head? ≠ some '"') :
    readBasicLines fuel (t ++ '"' :: '"' :: '"' :: rest) = some (s, rest) := by
  induction h generalizing fuel with
  | nil =>
    obtain ⟨fuel, rfl⟩ := Nat.exists_eq_add_of_lt hf
    simp only [List.nil_append, readBasicLines, closing?_three hrest]
  | plain hc hne hb h ih =>
    obtain _ | fuel := fuel
    · contradiction
    · simp only [List.cons_append, readBasicLines, closing?_of_ne hne, lineEnd?_of_isPrintable hc,
        if_neg (hb rfl), if_pos hc, ih (by decide) (Nat.lt_of_succ_lt_succ hf), Option.map_some]
  | escape hq he h ih =>
    obtain _ | fuel := fuel
    · contradiction
    · have hlength := length_lt_of_escape hf
      simp only [List.cons_append, List.append_assoc, readBasicLines,
        closing?_of_ne (show '\\' ≠ '"' by decide),
        lineEnd?_of_isPrintable (show isPrintable '\\' by decide), continued?_of_escapes he,
        readEscape_append he, if_true, Option.bind_eq_bind, Option.bind_some,
        ih (by decide) hlength, Option.map_some]
  | lineEnd hl h ih =>
    obtain _ | fuel := fuel
    · contradiction
    · simp only [List.cons_append, readBasicLines, closing?_of_ne (show '\n' ≠ '"' by decide),
        lineEnd?, ih (by decide) (Nat.lt_of_succ_lt_succ hf), Option.map_some]
  | quote hl hlt h ih =>
    obtain _ | fuel := fuel
    · contradiction
    -- The quote belongs to the text either way, but its last quotes are read with the closing ones.
    have hclosing := (Body.quote hl hlt h).closing?_cases (.inl rfl) hrun hrest
    rw [List.cons_append] at hclosing
    rcases hclosing with hclosing | hclosing
    · simp only [List.cons_append, readBasicLines, hclosing]
    · simp only [List.cons_append, readBasicLines, hclosing,
        lineEnd?_of_isPrintable (show isPrintable '"' by decide),
        if_neg (show '"' ≠ '\\' by decide), if_pos (show isPrintable '"' by decide),
        ih hlt (Nat.lt_of_succ_lt_succ hf), Option.map_some]

theorem readLiteralLines_of_body (h : Body '\'' true run t s) (hrun : run ≤ 2)
    (hf : t.length < fuel) (hrest : rest.head? ≠ some '\'') :
    readLiteralLines fuel (t ++ '\'' :: '\'' :: '\'' :: rest) = some (s, rest) := by
  induction h generalizing fuel with
  | nil =>
    obtain ⟨fuel, rfl⟩ := Nat.exists_eq_add_of_lt hf
    simp only [List.nil_append, readLiteralLines, closing?_three hrest]
  | plain hc hne hb h ih =>
    obtain _ | fuel := fuel
    · contradiction
    · simp only [List.cons_append, readLiteralLines, closing?_of_ne hne,
        lineEnd?_of_isPrintable hc, if_pos hc, ih (by decide) (Nat.lt_of_succ_lt_succ hf),
        Option.map_some]
  | escape hq => contradiction
  | lineEnd hl h ih =>
    obtain _ | fuel := fuel
    · contradiction
    · simp only [List.cons_append, readLiteralLines, closing?_of_ne (show '\n' ≠ '\'' by decide),
        lineEnd?, ih (by decide) (Nat.lt_of_succ_lt_succ hf), Option.map_some]
  | quote hl hlt h ih =>
    obtain _ | fuel := fuel
    · contradiction
    have hclosing := (Body.quote hl hlt h).closing?_cases (.inr rfl) hrun hrest
    rw [List.cons_append] at hclosing
    rcases hclosing with hclosing | hclosing
    · simp only [List.cons_append, readLiteralLines, hclosing]
    · simp only [List.cons_append, readLiteralLines, hclosing,
        lineEnd?_of_isPrintable (show isPrintable '\'' by decide),
        if_pos (show isPrintable '\'' by decide),
        ih hlt (Nat.lt_of_succ_lt_succ hf), Option.map_some]

/-! ## Texts -/

/-- What follows the opening quote of a text on one line does not make it three quotes. -/
theorem Body.append_ne (h : Body quote false run t s) (hrest : rest.head? ≠ some quote)
    (u : List Char) : t ++ quote :: rest ≠ quote :: quote :: u := by
  intro heq
  cases h with
  | nil =>
    rw [List.nil_append, List.cons.injEq] at heq
    exact hrest (heq.2 ▸ rfl)
  | plain hc hne => exact hne (List.cons.inj heq).1
  | escape hq' =>
    have hbackslash := (List.cons.inj heq).1
    rw [hq'] at hbackslash
    contradiction
  | lineEnd hl => cases hl
  | quote hl => cases hl

theorem readString_basic (h : ∀ u, t ≠ '"' :: '"' :: u) :
    readString ('"' :: t) = readBasic (t.length + 1) t := by
  unfold readString
  split
  · rename_i heq
    exact absurd (List.cons.inj heq).2 (h _)
  · rename_i heq
    cases heq
  · rename_i heq
    cases heq
    rfl
  · rename_i heq
    cases heq
  · rename_i hne _
    exact absurd rfl (hne _)

theorem readString_literal (h : ∀ u, t ≠ '\'' :: '\'' :: u) :
    readString ('\'' :: t) = readLiteral t := by
  unfold readString
  split
  · rename_i heq
    cases heq
  · rename_i heq
    exact absurd (List.cons.inj heq).2 (h _)
  · rename_i heq
    cases heq
  · rename_i heq
    cases heq
    rfl
  · rename_i hne
    exact absurd rfl (hne _)

/-- The opening quotes of a text of several lines take no line end unless it follows at once. -/
theorem skipFirstLineEnd_of_body (hq : IsQuote quote) (h : Body quote true run t s)
    (ht : t.head? ≠ some '\n') :
    skipFirstLineEnd (t ++ quote :: rest) = t ++ quote :: rest := by
  have hquote : isPrintable quote := by obtain rfl | rfl := hq <;> decide
  suffices lineEnd? (t ++ quote :: rest) = none by rw [skipFirstLineEnd, this]; rfl
  cases h with
  | nil => exact lineEnd?_of_isPrintable hquote
  | plain hc => exact lineEnd?_of_isPrintable hc
  | escape => exact lineEnd?_of_isPrintable (by decide)
  | lineEnd => exact absurd rfl ht
  | quote => exact lineEnd?_of_isPrintable hquote

/-- A text between three quotes is read behind its first line end, if that is its first
character. -/
theorem readString_of_body (hq : IsQuote quote) {u : List Char} (h : Body quote true 0 t s)
    (hu : skipFirstLineEnd u = t ++ quote :: quote :: quote :: rest)
    (hlength : t.length ≤ u.length) (hrest : rest.head? ≠ some quote) :
    readString (quote :: quote :: quote :: u) = some (s, rest) := by
  rcases hq with rfl | rfl
  · rw [readString, hu, readBasicLines_of_body h (by decide) (Nat.lt_succ_of_le hlength) hrest]
  · rw [readString, hu, readLiteralLines_of_body h (by decide) (Nat.lt_succ_of_le hlength) hrest]

/-- Every spelling of a text is read as the text. -/
theorem readString_of_spells (h : Spells t s) (hrest : ∀ q, IsQuote q → rest.head? ≠ some q) :
    readString (t ++ rest) = some (s, rest) := by
  cases h with
  | short h =>
    obtain ⟨hq, h⟩ := h
    rw [List.cons_append, List.append_assoc, List.singleton_append]
    have hne := h.append_ne (hrest _ hq)
    rcases hq with rfl | rfl
    · rw [readString_basic hne, readBasic_of_body h length_lt_append]
    · rw [readString_literal hne, readLiteral_of_body h]
  | long hq ht h =>
    simp only [List.cons_append, List.append_assoc, List.nil_append]
    exact readString_of_body hq h (skipFirstLineEnd_of_body hq h ht) (by simp) (hrest _ hq)
  | lines hq h =>
    simp only [List.cons_append, List.append_assoc, List.nil_append]
    exact readString_of_body hq h rfl (by simp; omega) (hrest _ hq)

/-! ## Keys -/

theorem not_isQuote_of_isBareKeyChar (h : isBareKeyChar c) : ¬IsQuote c := by
  rintro (rfl | rfl) <;> cases h

theorem not_isBlank_of_isBareKeyChar (h : isBareKeyChar c) : ¬isBlank c := by
  intro hb
  simp only [isBlank, decide_eq_true_eq] at hb
  rcases hb with rfl | rfl <;> cases h

theorem skipBlank_of_not_isBlank (h : ¬isBlank c) : skipBlank (c :: t) = c :: t :=
  List.dropWhile_cons_of_neg h

theorem readKeyPart_of_bare (hne : t ≠ []) (ht : ∀ c ∈ t, isBareKeyChar c)
    (hrest : ∀ c ∈ rest.head?, ¬isBareKeyChar c) :
    readKeyPart (t ++ rest) = some (String.ofList t, rest) := by
  have hword := takeWhile_append_of_head? ht hrest
  obtain ⟨c, t, rfl⟩ := List.exists_cons_of_ne_nil hne
  have hc := not_isQuote_of_isBareKeyChar (ht c List.mem_cons_self)
  unfold readKeyPart
  split
  · rename_i heq
    exact absurd (.inl (List.cons.inj heq).1) hc
  · rename_i heq
    exact absurd (.inr (List.cons.inj heq).1) hc
  · rw [hword]
    simp

theorem readKeyPart_of_spellsKey (h : SpellsKey t s) (hrest : ∀ c ∈ rest.head?, ¬isBareKeyChar c) :
    readKeyPart (t ++ rest) = some (String.ofList s, rest) := by
  cases h with
  | bare hne hword => exact readKeyPart_of_bare hne hword hrest
  | quoted h =>
    obtain ⟨rfl | rfl, h⟩ := h
    · simp only [List.cons_append, List.append_assoc, List.nil_append, readKeyPart]
      rw [readBasic_of_body h length_lt_append, Option.map_some]
    · simp only [List.cons_append, List.append_assoc, List.nil_append, readKeyPart]
      rw [readLiteral_of_body h, Option.map_some]

/-- A key starts with a character of a bare word or with a quote. -/
theorem SpellsKey.exists_cons (h : SpellsKey t s) :
    ∃ c u, t = c :: u ∧ (isBareKeyChar c ∨ IsQuote c) := by
  cases h with
  | bare hne hword =>
    obtain ⟨c, u, rfl⟩ := List.exists_cons_of_ne_nil hne
    exact ⟨c, u, rfl, .inl (hword c List.mem_cons_self)⟩
  | quoted h =>
    obtain ⟨hq, h⟩ := h
    exact ⟨_, _, rfl, .inr hq⟩

theorem SpellsKey.skipBlank_append (h : SpellsKey t s) (rest : List Char) :
    skipBlank (t ++ rest) = t ++ rest := by
  obtain ⟨c, u, rfl, hc | rfl | rfl⟩ := h.exists_cons
  · exact skipBlank_of_not_isBlank (not_isBlank_of_isBareKeyChar hc)
  · rfl
  · rfl

/-- Every spelling of a key is read as the key, with the blanks behind it. -/
theorem readKey_of_spellsKey (h : SpellsKey t s) (hrest : ∀ c ∈ rest.head?, ¬isBareKeyChar c)
    (hdot : (skipBlank rest).head? ≠ some '.') :
    readKey (t ++ rest) = some ([], String.ofList s, skipBlank rest) := by
  have hparts : readKeyParts (depthLimit - 1) (t ++ rest) =
      some ([String.ofList s], skipBlank rest) := by
    rw [depthLimit, readKeyParts, h.skipBlank_append, readKeyPart_of_spellsKey h hrest]
    simp only [Option.bind_eq_bind, Option.bind_some]
    split
    · rename_i heq
      rw [heq] at hdot
      exact absurd rfl hdot
    · rfl
  rw [readKey, hparts]
  rfl

end Toml

end Mediatheque
