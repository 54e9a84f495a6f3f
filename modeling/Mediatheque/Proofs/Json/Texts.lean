import Mediatheque.Proofs.Json.Spelling

/-!
# Reading texts

What is read up to a closing quote is a text whose spelling stands before the quote
(`exists_body_of_readString`), and every spelling of a text is read as the text
(`readString_of_body`).
-/

namespace Mediatheque

/-! ## Codes -/

theorem hexDigit?_lt {c : Char} {d : Nat} (h : hexDigit? c = some d) : d < 16 := by
  have hle {a b : Char} (h : a ≤ b) : a.toNat ≤ b.toNat := h
  unfold hexDigit? at h
  split at h
  next hc =>
    have hc := hle hc.2
    have h9 : '9'.toNat = '0'.toNat + 9 := rfl
    cases h
    omega
  next =>
    split at h
    next hc =>
      have hc := hle hc.2
      have hf : 'f'.toNat = 'a'.toNat + 5 := rfl
      cases h
      omega
    next =>
      split at h
      next hc =>
        have hc := hle hc.2
        have hf : 'F'.toNat = 'A'.toNat + 5 := rfl
        cases h
        omega
      next => cases h

/-- A character is not one half of a pair of surrogates. -/
theorem not_surrogate (c : Char) : ¬ (0xD800 ≤ c.toNat ∧ c.toNat < 0xE000) := by
  have hc : c.toNat < 0xD800 ∨ (0xDFFF < c.toNat ∧ c.toNat < 0x110000) := c.valid
  omega

/-- Every other code is that of a character. -/
theorem toNat_charOfNat {n : Nat} (h : n < 0x110000) (hs : ¬ (0xD800 ≤ n ∧ n < 0xE000)) :
    (Char.ofNat n).toNat = n := by
  have hn : n.isValidChar := by
    rw [Nat.isValidChar]
    omega
  rw [Char.ofNat, dif_pos hn]
  rfl

namespace Json

variable {a b c d x : Char} {n : Nat} {t s r rest : List Char}

theorem hex4?_lt (h : hex4? a b c d = some n) : n < 0x10000 := by
  rw [hex4?, Option.map_eq_some_iff] at h
  obtain ⟨values, hvalues, rfl⟩ := h
  simp only [digitValues?, List.mapM_cons, List.mapM_nil, Option.bind_eq_bind,
    Option.bind_eq_some_iff, Option.pure_def, Option.some.injEq] at hvalues
  obtain ⟨k, ha, _, ⟨l, hb, _, ⟨m, hc, _, ⟨o, hd, _, rfl, rfl⟩, rfl⟩, rfl⟩, rfl⟩ := hvalues
  have hk := hexDigit?_lt ha
  have hl := hexDigit?_lt hb
  have hm := hexDigit?_lt hc
  have ho := hexDigit?_lt hd
  simp only [numberOf, List.foldl_cons, List.foldl_nil]
  omega

/-! ## Spellings are read -/

theorem shortEscape?_letter (h : shortEscape? a = some x) :
    a ∈ ['"', '\\', '/', 'b', 'f', 'n', 'r', 't'] := by
  unfold shortEscape? at h
  split at h
  all_goals first | contradiction | simp

theorem readString_escape {e : List Char} (he : Escape e x) (rest : List Char) :
    readString ('\\' :: (e ++ rest)) = (readString rest).map fun (t, r) => (x :: t, r) := by
  cases he with
  | short h =>
    have hl := shortEscape?_letter h
    simp only [List.mem_cons, List.not_mem_nil, or_false] at hl
    rcases hl with rfl | rfl | rfl | rfl | rfl | rfl | rfl | rfl <;> cases h <;> rfl
  | coded h =>
    have hx := not_surrogate x
    simp only [List.cons_append, List.nil_append, readString, h]
    rw [if_neg (by omega), if_neg (by omega), Char.ofNat_toNat]
  | paired hhigh hlow hh hl hc =>
    simp only [List.cons_append, List.nil_append, readString, hhigh, hlow, if_pos hh, if_pos hl,
      pairedChar, ← hc, Char.ofNat_toNat]

theorem readString_plain (hq : c ≠ '"') (hb : c ≠ '\\') (hc : 0x20 ≤ c.toNat)
    (rest : List Char) :
    readString (c :: rest) = (readString rest).map fun (t, r) => (c :: t, r) := by
  have hplain : ¬ (c = '\\' ∨ c.toNat < 0x20) := fun h => h.elim hb (by omega)
  rw [readString, if_neg hplain]
  · exact hq
  · exact fun _ _ _ _ _ h => absurd h hb
  · exact fun _ _ h => absurd h hb

/-- Every spelling of a text is read as the text. -/
theorem readString_of_body (h : Body t s) (rest : List Char) :
    readString (t ++ '"' :: rest) = some (s, rest) := by
  induction h with
  | nil => rfl
  | plain hq hb hc h ih => rw [List.cons_append, readString_plain hq hb hc, ih, Option.map_some]
  | escape he h ih =>
    rw [List.cons_append, List.append_assoc, readString_escape he, ih, Option.map_some]

/-! ## What is read is a spelling -/

/-- A character that has been read goes in front of the text behind it. -/
theorem exists_body_append (before : List Char)
    (hread : (readString rest).map (fun (t, r) => (x :: t, r)) = some (t, r))
    (ih : ∀ {t r}, readString rest = some (t, r) → ∃ w, rest = w ++ '"' :: r ∧ Body w t)
    (hbody : ∀ {w s}, Body w s → Body (before ++ w) (x :: s)) :
    ∃ w, before ++ rest = w ++ '"' :: r ∧ Body w t := by
  obtain ⟨⟨u, r'⟩, hu, heq⟩ := Option.map_eq_some_iff.1 hread
  cases heq
  obtain ⟨w, hw, hbodyw⟩ := ih hu
  exact ⟨before ++ w, by rw [hw, List.append_assoc], hbody hbodyw⟩

/-- What is read as a text is a spelling of it, with a closing quote behind. -/
theorem exists_body_of_readString (h : readString s = some (t, r)) :
    ∃ w, s = w ++ '"' :: r ∧ Body w t := by
  revert t r
  refine readString.induct_unfolding
    (motive := fun s read => ∀ {t r}, read = some (t, r) → ∃ w, s = w ++ '"' :: r ∧ Body w t)
    ?unclosed ?closed ?noCode ?noSecondCode ?paired ?noLowSurrogate ?highAlone ?lowAlone ?coded
    ?noEscape ?short ?control ?plain s
  case closed =>
    rintro rest t r ⟨⟩
    exact ⟨[], rfl, .nil⟩
  case paired =>
    intro a b c d high hhigh hh f g i j rest low hlow hl ih t r h
    refine exists_body_append ['\\', 'u', a, b, c, d, '\\', 'u', f, g, i, j] h ih fun hw =>
      .escape (.paired hhigh hlow hh hl (toNat_charOfNat ?_ ?_)) hw
    · omega
    · omega
  case coded =>
    intro a b c d rest n hn hh hl ih t r h
    have hlt := hex4?_lt hn
    have hcode := toNat_charOfNat (n := n) (by omega) (by omega)
    exact exists_body_append ['\\', 'u', a, b, c, d] h ih fun hw =>
      .escape (.coded (hn.trans (congrArg some hcode.symm))) hw
  case short =>
    intro c rest _ x hx ih t r h
    exact exists_body_append ['\\', c] h ih fun hw => .escape (.short hx) hw
  case plain =>
    intro c rest hq _ _ hplain ih t r h
    obtain ⟨hb, hc⟩ := not_or.1 hplain
    exact exists_body_append [c] h ih fun hw => .plain hq hb (Nat.le_of_not_lt hc) hw
  -- Elsewhere nothing is read.
  all_goals
    intros
    contradiction

end Json

end Mediatheque
