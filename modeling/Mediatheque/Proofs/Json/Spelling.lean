import Mediatheque.Json.Printer
import Mediatheque.Json.Reader
import Mediatheque.Proofs.Toml.Numbers

/-!
# Spellings of texts and numbers

A text has many spellings in JSON: all characters but the quote, the backslash and the control
characters stand for themselves, and every character can be escaped by its code, one beyond the
first 65536 by a pair of surrogates (`Escape`, `Body`). A number is a sign, digits without a zero in
front of others, and possibly a fraction and an exponent (`SpellsNumber`). What is written for a
text or an integer is one of its spellings (`body_flatMap_escapeChar`, `spellsNumber_intText`).
-/

namespace Mediatheque

namespace Json

/-- Blanks and line ends, any number of them. -/
def Gap (g : List Char) : Prop := ∀ c ∈ g, isBlank c

theorem gap_nil : Gap [] := nofun

/-! ## Texts -/

/-- The ways to escape a character, behind a backslash. -/
inductive Escape : List Char → Char → Prop where
  | short {letter c : Char} (h : shortEscape? letter = some c) : Escape [letter] c
  | coded {a b d e c : Char} (h : hex4? a b d e = some c.toNat) : Escape ['u', a, b, d, e] c
  | paired {a b d e f g i j c : Char} {high low : Nat} (hhigh : hex4? a b d e = some high)
      (hlow : hex4? f g i j = some low) (hh : 0xD800 ≤ high ∧ high < 0xDC00)
      (hl : 0xDC00 ≤ low ∧ low < 0xE000)
      (hc : c.toNat = 0x10000 + (high - 0xD800) * 0x400 + (low - 0xDC00)) :
      Escape ['u', a, b, d, e, '\\', 'u', f, g, i, j] c

/-- The characters between the quotes of a text, and the text. -/
inductive Body : List Char → List Char → Prop where
  | nil : Body [] []
  | plain {c : Char} {t s : List Char} (hq : c ≠ '"') (hb : c ≠ '\\') (hc : 0x20 ≤ c.toNat)
      (h : Body t s) : Body (c :: t) (c :: s)
  | escape {e t s : List Char} {c : Char} (he : Escape e c) (h : Body t s) :
      Body ('\\' :: (e ++ t)) (c :: s)

/-- A text is no longer than its spellings. -/
theorem Body.length_le {t s : List Char} (h : Body t s) : s.length ≤ t.length := by
  induction h with
  | nil => exact Nat.le_refl _
  | plain hq hb hc h ih => exact Nat.succ_le_succ ih
  | escape he h ih =>
    simp only [List.length_cons, List.length_append]
    omega

/-! ## Numbers -/

/-- A run of decimal digits, with their values. -/
inductive Digits : List Char → List Nat → Prop where
  | nil : Digits [] []
  | cons {c : Char} {d : Nat} {w : List Char} {ds : List Nat} (hd : decimalDigit? c = some d)
      (h : Digits w ds) : Digits (c :: w) (d :: ds)

/-- The digits behind a point, if there is one. -/
inductive Fraction : List Char → Option (List Nat) → Prop where
  | absent : Fraction [] none
  | digits {w : List Char} {ds : List Nat} (hw : Digits w ds) (hne : ds ≠ []) :
      Fraction ('.' :: w) (some ds)

/-- The sign of an exponent, which may be left out, and whether it is a minus. -/
inductive ExponentSign : List Char → Bool → Prop where
  | absent : ExponentSign [] false
  | plus : ExponentSign ['+'] false
  | minus : ExponentSign ['-'] true

/-- The power of ten behind an `e` of either case, if there is one. -/
inductive Exponent : List Char → Option Int → Prop where
  | absent : Exponent [] none
  | digits {mark : Char} {sign w : List Char} {negative : Bool} {ds : List Nat}
      (hmark : mark = 'e' ∨ mark = 'E') (hsign : ExponentSign sign negative) (hw : Digits w ds)
      (hne : ds ≠ []) : Exponent (mark :: (sign ++ w))
        (some (if negative then -(numberOf 10 ds : Int) else numberOf 10 ds))

/-- The digits before the point: a zero stands alone. -/
structure Whole (w : List Char) (ds : List Nat) : Prop where
  digits : Digits w ds
  ne_nil : ds ≠ []
  leading : ds.head? = some 0 → ds = [0]

/-- The spellings of a number. -/
inductive SpellsNumber : List Char → NumberText → Prop where
  | intro {negative : Bool} {w f e : List Char} {whole : List Nat} {fraction : Option (List Nat)}
      {exponent : Option Int} (hw : Whole w whole) (hf : Fraction f fraction)
      (he : Exponent e exponent) :
      SpellsNumber ((if negative then ['-'] else []) ++ (w ++ (f ++ e)))
        ⟨negative, whole, fraction, exponent⟩

/-! ## What is written -/

/-- The code of a control character is written in four digits. -/
theorem hex4?_of_control : ∀ n < 0x20,
    hex4? '0' '0' (hexDigitOf ((Char.ofNat n).toUInt8.toNat / 16))
      (hexDigitOf ((Char.ofNat n).toUInt8.toNat % 16)) = some n := by
  decide +kernel

/-- What is written for a character between quotes is the character or an escape of it. -/
theorem escapeChar_cases (c : Char) :
    (escapeChar c = [c] ∧ c ≠ '"' ∧ c ≠ '\\' ∧ 0x20 ≤ c.toNat) ∨
      ∃ e, escapeChar c = '\\' :: e ∧ Escape e c := by
  have short {letter c : Char} (hl : shortEscape? letter = some c)
      (he : escapeChar c = ['\\', letter]) : ∃ e, escapeChar c = '\\' :: e ∧ Escape e c :=
    ⟨[letter], he, .short hl⟩
  by_cases hshort : c ∈ ['"', '\\', '\n', '\r', '\t', '\x08', '\x0c']
  · simp only [List.mem_cons, List.not_mem_nil, or_false] at hshort
    rcases hshort with rfl | rfl | rfl | rfl | rfl | rfl | rfl <;> exact .inr (short rfl rfl)
  simp only [List.mem_cons, List.not_mem_nil, or_false, not_or] at hshort
  obtain ⟨hq, hb, hn, hr, ht, h8, hc⟩ := hshort
  simp only [escapeChar, if_neg hq, if_neg hb, if_neg hn, if_neg hr, if_neg ht, if_neg h8,
    if_neg hc]
  by_cases hcontrol : c.toNat < 0x20
  · have hv := hex4?_of_control c.toNat hcontrol
    rw [Char.ofNat_toNat] at hv
    exact .inr ⟨_, if_pos hcontrol, .coded hv⟩
  · exact .inl ⟨if_neg hcontrol, hq, hb, Nat.le_of_not_lt hcontrol⟩

theorem body_flatMap_escapeChar (s : List Char) : Body (s.flatMap escapeChar) s := by
  induction s with
  | nil => exact .nil
  | cons c s ih =>
    rw [List.flatMap_cons]
    rcases escapeChar_cases c with ⟨h, hq, hb, hc⟩ | ⟨e, h, he⟩
    · rw [h]
      exact .plain hq hb hc ih
    · rw [h]
      exact .escape he ih

theorem digits_map {ds : List Nat} (h : ∀ d ∈ ds, d < 10) : Digits (ds.map Nat.digitChar) ds := by
  induction ds with
  | nil => exact .nil
  | cons d ds ih =>
    obtain ⟨hd, hds⟩ := List.forall_mem_cons.1 h
    exact .cons (decimalDigit?_digitChar d hd) (ih hds)

theorem whole_natText (n : Nat) : ∃ ds, Whole (natText n) ds ∧ numberOf 10 ds = n := by
  obtain ⟨ds, htext, hds⟩ := natText_eq n
  exact ⟨ds, ⟨htext ▸ digits_map hds.lt, hds.ne_nil, hds.leading⟩, hds.value⟩

/-- The text of an integer has a sign and digits alone. -/
theorem spellsNumber_intText (i : Int) :
    ∃ ds, SpellsNumber (intText i) ⟨decide (i < 0), ds, none, none⟩ ∧
      numberOf 10 ds = i.natAbs := by
  obtain ⟨ds, hds, hvalue⟩ := whole_natText i.natAbs
  refine ⟨ds, ?_, hvalue⟩
  have h : SpellsNumber _ ⟨decide (i < 0), ds, none, none⟩ := .intro hds .absent .absent
  simp only [decide_eq_true_eq, List.append_nil] at h
  rwa [Toml.intText_eq]

end Json

end Mediatheque
