import Mediatheque.Toml.Printer

/-!
# Spellings of texts, keys and lists

A text has many spellings in TOML: between quotes, where some characters have to be escaped, or
between apostrophes, where none can be; on one line or, between three of either, on several
(`Spells`). A key is a bare word or a text on one line (`SpellsKey`), and the texts of a list
stand on one line or on several (`SpellsItems`). What is written is one of these spellings in
every style (`spells_writeText`, `spellsKey_writeKey`, `spellsItems_writeTexts`), since a style
leaves nothing as it is that would have to be escaped, or that would close the text.
-/

namespace Mediatheque

namespace Toml

/-! ## Escapes -/

/-- The number of hexadecimal digits. -/
def hexValue? (digits : List Char) : Option Nat :=
  (digitValues? hexDigit? digits).map (numberOf 16)

/-- The ways to escape a character, behind a backslash. -/
inductive Escapes : List Char → Char → Prop where
  | short {letter c : Char} (h : shortEscape? letter = some c) : Escapes [letter] c
  | four {a b d e c : Char} (h : hexValue? [a, b, d, e] = some c.toNat) :
      Escapes ['u', a, b, d, e] c
  | eight {a b d e f g i j c : Char} (h : hexValue? [a, b, d, e, f, g, i, j] = some c.toNat) :
      Escapes ['U', a, b, d, e, f, g, i, j] c

/-! ## Texts -/

/-- The characters between the quotes of a text, and the text. Nothing is escaped between
apostrophes, and a line ends only in a text of several lines, which may hold two quotes in a row;
`run` is the number of quotes right before. -/
inductive Body (quote : Char) (lines : Bool) : Nat → List Char → List Char → Prop where
  | nil {run : Nat} : Body quote lines run [] []
  | plain {run : Nat} {c : Char} {t s : List Char} (hc : isPrintable c) (hq : c ≠ quote)
      (hb : quote = '"' → c ≠ '\\') (h : Body quote lines 0 t s) :
      Body quote lines run (c :: t) (c :: s)
  | escape {run : Nat} {e : List Char} {c : Char} {t s : List Char} (hq : quote = '"')
      (he : Escapes e c) (h : Body quote lines 0 t s) :
      Body quote lines run ('\\' :: (e ++ t)) (c :: s)
  | lineEnd {run : Nat} {t s : List Char} (hl : lines) (h : Body quote lines 0 t s) :
      Body quote lines run ('\n' :: t) ('\n' :: s)
  | quote {run : Nat} {t s : List Char} (hl : lines) (hrun : run < 2)
      (h : Body quote lines (run + 1) t s) : Body quote lines run (quote :: t) (quote :: s)

/-- Whether a text stands between quotes or between apostrophes. -/
def IsQuote (c : Char) : Prop := c = '"' ∨ c = '\''

instance : DecidablePred IsQuote := fun _ => inferInstanceAs (Decidable (_ ∨ _))

/-- The spellings of a text on one line. -/
inductive SpellsShort : List Char → List Char → Prop where
  | intro {quote : Char} {t s : List Char} (hq : IsQuote quote) (h : Body quote false 0 t s) :
      SpellsShort (quote :: (t ++ [quote])) s

/-- The spellings of a text. The first line end behind three quotes is not part of it. -/
inductive Spells : List Char → List Char → Prop where
  | short {t s : List Char} (h : SpellsShort t s) : Spells t s
  | long {quote : Char} {t s : List Char} (hq : IsQuote quote) (ht : t.head? ≠ some '\n')
      (h : Body quote true 0 t s) :
      Spells (quote :: quote :: quote :: (t ++ [quote, quote, quote])) s
  | lines {quote : Char} {t s : List Char} (hq : IsQuote quote) (h : Body quote true 0 t s) :
      Spells (quote :: quote :: quote :: '\n' :: (t ++ [quote, quote, quote])) s

/-- The spellings of a key. -/
inductive SpellsKey : List Char → List Char → Prop where
  | bare {word : List Char} (hne : word ≠ []) (hword : ∀ c ∈ word, isBareKeyChar c) :
      SpellsKey word word
  | quoted {t s : List Char} (h : SpellsShort t s) : SpellsKey t s

/-- Blanks and line ends between the items of a list. -/
def Gap (g : List Char) : Prop := ∀ c ∈ g, isBlank c ∨ c = '\n'

/-- The spellings of the items of a list with the closing bracket behind them. -/
inductive SpellsItems : List Char → List String → Prop where
  | nil : SpellsItems [']'] []
  | last {t g : List Char} {s : String} (ht : Spells t s.toList) (hg : Gap g) :
      SpellsItems (t ++ (g ++ [']'])) [s]
  | cons {t g g' rest : List Char} {s : String} {items : List String} (ht : Spells t s.toList)
      (hg : Gap g) (hg' : Gap g') (h : SpellsItems rest items) :
      SpellsItems (t ++ (g ++ ',' :: (g' ++ rest))) (s :: items)

/-! ## What is written -/

/-- The code of a control character is written in four digits. -/
theorem hexValue?_of_control : ∀ n < 128, n < 0x20 ∨ n = 0x7f →
    hexValue? (['0', '0'] ++ (hexByte (Char.ofNat n).toUInt8).map Char.toUpper) = some n := by
  decide +kernel

/-- What is written for a character between quotes is the character or an escape of it. -/
theorem escapeChar_cases (c : Char) :
    (escapeChar c = [c] ∧ isPrintable c ∧ c ≠ '"' ∧ c ≠ '\\') ∨
      ∃ e, escapeChar c = '\\' :: e ∧ Escapes e c := by
  have short {letter c : Char} (hl : shortEscape? letter = some c)
      (he : escapeChar c = ['\\', letter]) :
      ∃ e, escapeChar c = '\\' :: e ∧ Escapes e c := ⟨[letter], he, .short hl⟩
  by_cases hq : c = '"'
  · subst hq
    exact .inr (short rfl rfl)
  by_cases hb : c = '\\'
  · subst hb
    exact .inr (short rfl rfl)
  by_cases hn : c = '\n'
  · subst hn
    exact .inr (short rfl rfl)
  by_cases hr : c = '\r'
  · subst hr
    exact .inr (short rfl rfl)
  by_cases ht : c = '\t'
  · subst ht
    exact .inr (short rfl rfl)
  by_cases h8 : c = '\x08'
  · subst h8
    exact .inr (short rfl rfl)
  by_cases hc : c = '\x0c'
  · subst hc
    exact .inr (short rfl rfl)
  simp only [escapeChar, if_neg hq, if_neg hb, if_neg hn, if_neg hr, if_neg ht, if_neg h8,
    if_neg hc]
  by_cases hcontrol : c.toNat < 0x20 ∨ c.toNat = 0x7f
  · rw [if_pos hcontrol]
    have hv := hexValue?_of_control c.toNat (by omega) hcontrol
    rw [Char.ofNat_toNat] at hv
    exact .inr ⟨_, rfl, .four hv⟩
  · rw [if_neg hcontrol]
    exact .inl ⟨rfl, by simp only [isPrintable]; grind, hq, hb⟩

theorem body_flatMap_escapeChar (s : List Char) : Body '"' false 0 (s.flatMap escapeChar) s := by
  induction s with
  | nil => exact .nil
  | cons c s ih =>
    rw [List.flatMap_cons]
    rcases escapeChar_cases c with ⟨h, hc, hq, hb⟩ | ⟨e, h, he⟩
    · rw [h]
      exact .plain hc hq (fun _ => hb) ih
    · rw [h]
      exact .escape rfl he ih

theorem body_of_literal {s : List Char} (h : ∀ c ∈ s, c ≠ '\'' ∧ isPrintable c) :
    Body '\'' false 0 s s := by
  induction s with
  | nil => exact .nil
  | cons c s ih =>
    obtain ⟨⟨hq, hc⟩, hs⟩ := List.forall_mem_cons.1 h
    exact .plain hc hq nofun (ih hs)

/-! ## Keys -/

theorem spellsShort_basic (s : List Char) :
    SpellsShort ('"' :: (s.flatMap escapeChar ++ ['"'])) s :=
  .intro (.inl rfl) (body_flatMap_escapeChar s)

theorem spellsShort_writeShort (s : List Char) : SpellsShort (writeShort s) s := by
  rw [writeShort]
  split
  next h =>
    rw [prefersLiteral, Bool.and_eq_true, List.all_eq_true] at h
    exact .intro (.inr rfl) (body_of_literal fun c hc => by simpa using h.2 c hc)
  next => exact spellsShort_basic s

theorem spellsKey_writeKey (key : List Char) : SpellsKey (writeKey key) key := by
  rw [writeKey]
  split
  next h =>
    rw [Bool.and_eq_true, List.all_eq_true] at h
    exact .bare (by simpa using h.1) h.2
  next => exact .quoted (spellsShort_writeShort key)

/-! ## Forms of texts -/

/-- A text can be written in a form: one that is written as it is holds nothing that would have to
be escaped, and no mark that closes it. -/
def Form.Fits : Form → List Char → Prop
  | .basic, _ | .basicLines, _ => True
  | .literal, s => ∀ c ∈ s, c ≠ '\'' ∧ isPrintable c
  | .literalLines, s => needsEscape s = false ∧ longestRun '\'' s ≤ 2

theorem needsEscape_eq_false_iff {s : List Char} :
    needsEscape s = false ↔ ∀ c ∈ s, isPrintable c ∨ c = '\n' := by
  simp only [needsEscape, List.any_eq_false, Bool.and_eq_true, Bool.not_eq_true', decide_eq_true_eq,
    not_and, Decidable.not_not]
  exact forall₂_congr fun c _ => by cases isPrintable c <;> simp

theorem fits_literal {s : List Char} (hs : needsEscape s = false) (hq : '\'' ∉ s)
    (hn : '\n' ∉ s) : Form.literal.Fits s := by
  intro c hc
  refine ⟨ne_of_mem_of_not_mem hc hq, ?_⟩
  exact (needsEscape_eq_false_iff.1 hs c hc).resolve_right (ne_of_mem_of_not_mem hc hn)

theorem fits_escaped (s : List Char) : (Form.escaped s).Fits s := by
  rw [Form.escaped]
  split <;> trivial

/-- A style has a form that fits for every text. -/
theorem Style.fits_form (style : Style) (s : List Char) : (style.form s).Fits s := by
  unfold form
  split
  · exact fits_escaped s
  rename_i hs
  rw [Bool.not_eq_true] at hs
  cases style with
  | quotesFirst =>
    dsimp only
    split
    · trivial
    split
    · rename_i h
      simp only [Bool.and_eq_true, Bool.not_eq_true', List.contains_eq_mem,
        decide_eq_false_iff_not] at h
      exact fits_literal hs h.1 h.2
    split
    · trivial
    split
    · exact ⟨hs, ‹_›⟩
    · exact fits_escaped s
  | apostrophesFirst =>
    dsimp only
    split
    · rename_i h
      simp only [Bool.and_eq_true, decide_eq_true_eq] at h
      split
      · exact ⟨hs, h.1.2⟩
      · rename_i hshort
        simp only [Bool.or_eq_true, List.contains_eq_mem, decide_eq_true_eq, not_or] at hshort
        exact fits_literal hs hshort.2 hshort.1
    · exact fits_escaped s

theorem length_takeWhile_le_longestRun (q : Char) (s : List Char) :
    (s.takeWhile (· = q)).length ≤ longestRun q s := by
  cases s with
  | nil => exact Nat.zero_le _
  | cons c s => exact Nat.le_max_left _ _

/-- Apostrophes stand for themselves between three, as long as no three of them follow each
other. -/
theorem body_of_literalLines {s : List Char} (hs : needsEscape s = false)
    (hrun : longestRun '\'' s ≤ 2) {run : Nat}
    (h : run + (s.takeWhile (· = '\'')).length ≤ 2) : Body '\'' true run s s := by
  rw [needsEscape_eq_false_iff] at hs
  induction s generalizing run with
  | nil => exact .nil
  | cons c s ih =>
    obtain ⟨hc, htail⟩ := List.forall_mem_cons.1 hs
    have hrest : longestRun '\'' s ≤ 2 := Nat.le_trans (Nat.le_max_right _ _) hrun
    have hfresh : Body '\'' true 0 s s :=
      ih htail hrest (by have := length_takeWhile_le_longestRun '\'' s; omega)
    by_cases hq : c = '\''
    · subst hq
      simp only [decide_true, List.takeWhile_cons_of_pos, List.length_cons] at h
      exact .quote rfl (by omega) (ih htail hrest (by omega))
    · rcases hc with hc | rfl
      · exact .plain hc hq nofun hfresh
      · exact .lineEnd rfl hfresh

/-- Quotes stand for themselves between three of them as long as at most two follow each other. -/
theorem body_escapeLines {bare : Nat} (hbare : bare ≤ 2) (run : Nat) (s : List Char) :
    Body '"' true run (escapeLines bare run s) s := by
  induction s generalizing run with
  | nil => exact .nil
  | cons c s ih =>
    rw [escapeLines]
    split
    next hc =>
      subst hc
      exact .lineEnd rfl (ih 0)
    next =>
      split
      next h =>
        obtain ⟨rfl, hrun⟩ := h
        exact .quote rfl (by omega) (ih (run + 1))
      next =>
        rcases escapeChar_cases c with ⟨h, hc, hq, hb⟩ | ⟨e, h, he⟩
        · rw [h]
          exact .plain hc hq (fun _ => hb) (ih 0)
        · rw [h]
          exact .escape rfl he (ih 0)

/-- What is written of a text without line ends starts with none. -/
theorem head?_escapeLines {bare : Nat} {s : List Char} (h : '\n' ∉ s) :
    (escapeLines bare 0 s).head? ≠ some '\n' := by
  cases s with
  | nil => exact nofun
  | cons c s =>
    have hc : c ≠ '\n' := by
      rintro rfl
      exact h List.mem_cons_self
    rw [escapeLines, if_neg hc]
    split
    · simp
    · rcases escapeChar_cases c with ⟨h, -⟩ | ⟨e, h, -⟩
      · simpa [h] using hc
      · simp [h]

theorem spells_writeLines {quote : Char} {s body : List Char} (hq : IsQuote quote)
    (hbody : Body quote true 0 body s) (hhead : '\n' ∉ s → body.head? ≠ some '\n') :
    Spells (writeLines quote s body) s := by
  rw [writeLines]
  split
  next => exact .lines hq hbody
  next h => exact .long hq (hhead (by simpa using h)) hbody

/-- What is written for a text spells it, in every style. -/
theorem spells_writeText (style : Style) (s : List Char) : Spells (writeText style s) s := by
  have hfits := style.fits_form s
  have hbare : style.bareQuotes ≤ 2 := by cases style <;> decide
  rw [writeText]
  cases hform : style.form s with
  | basic => exact .short (spellsShort_basic s)
  | literal =>
    rw [hform] at hfits
    exact .short (.intro (.inr rfl) (body_of_literal hfits))
  | basicLines => exact spells_writeLines (.inl rfl) (body_escapeLines hbare 0 s) head?_escapeLines
  | literalLines =>
    rw [hform] at hfits
    refine spells_writeLines (.inr rfl) (body_of_literalLines hfits.1 hfits.2 ?_) fun h hhead => ?_
    · rw [Nat.zero_add]
      exact Nat.le_trans (length_takeWhile_le_longestRun _ _) hfits.2
    · exact h (List.mem_of_mem_head? hhead)

/-! ## Lists -/

theorem writeItemLines_cons (item : List Char) (items : List (List Char)) :
    writeItemLines (item :: items) =
      [' ', ' ', ' ', ' '] ++ (item ++ ',' :: '\n' :: writeItemLines items) := by
  simp [writeItemLines]

/-- The line of an item starts with an indent, and the closing bracket stands behind the last. -/
theorem spellsItems_writeItemLines (style : Style) (items : List String) :
    ∃ g rest, writeItemLines (items.map fun s => writeText style s.toList) ++ [']'] = g ++ rest ∧
      Gap g ∧ SpellsItems rest items := by
  induction items with
  | nil => exact ⟨[], [']'], rfl, nofun, .nil⟩
  | cons s items ih =>
    obtain ⟨g, rest, h, hg, hrest⟩ := ih
    refine ⟨[' ', ' ', ' ', ' '],
      writeText style s.toList ++ ([] ++ ',' :: ('\n' :: g ++ rest)), ?_, ?_,
      .cons (spells_writeText style s.toList) nofun ?_ hrest⟩
    · rw [List.map_cons, writeItemLines_cons]
      simp only [List.append_assoc, List.cons_append, List.nil_append, h]
    · simp [Gap, isBlank]
    · simpa [Gap, isBlank] using hg

theorem spellsItems_writeTexts (style : Style) (items : List String) :
    ∃ g rest, writeTexts style items = '[' :: (g ++ rest) ∧ Gap g ∧ SpellsItems rest items := by
  match items with
  | [] => exact ⟨[], [']'], rfl, nofun, .nil⟩
  | [s] =>
    exact ⟨[], writeText style s.toList ++ ([] ++ [']']), rfl, nofun,
      .last (spells_writeText style s.toList) nofun⟩
  | s :: s' :: items =>
    obtain ⟨g, rest, h, hg, hrest⟩ := spellsItems_writeItemLines style (s :: s' :: items)
    refine ⟨'\n' :: g, rest, ?_, by simpa [Gap, isBlank] using hg, hrest⟩
    rw [List.cons_append, ← h]
    rfl

end Toml

end Mediatheque
