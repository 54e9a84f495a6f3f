import Mediatheque.CommandLine.Value
import Mediatheque.Proofs.Json.Values
import Mediatheque.Proofs.Media.Lossless

/-!
# What an argument gives

An argument is JSON for the value of a setting if the value is spelled in it, with blanks around: a
truth value, a number, a text between quotes or a list of such texts (`ParameterValue.Spells`,
`ParameterValue.SpelledBy`).

* `read?_of_spelledBy`: whatever spells a value is read as JSON for it;
* `spelledBy_of_read?`: whatever is read as JSON for a value spells it;
* `spells_write`: what is written for a value spells it, unless it is a floating-point number.

Hence an argument gives the value that it spells, and is taken for a text, as it stands, exactly if
it spells none (`ofArgument_spelled`).
-/

namespace Mediatheque

namespace ParameterValue

open Json (Body EndsNumber Gap NumberText SpellsNumber isBlank readItems readValue skipBlank)

/-! ## Spellings of values -/

/-- The spellings of the texts of a list that is not empty, with the closing bracket behind. -/
inductive SpellsItems : List Char → List String → Prop where
  | last {w g : List Char} {s : String} (hw : Body w s.toList) (hg : Gap g) :
      SpellsItems ('"' :: (w ++ '"' :: (g ++ [']']))) [s]
  | cons {w g g' rest : List Char} {s : String} {items : List String} (hw : Body w s.toList)
      (hg : Gap g) (hg' : Gap g') (h : SpellsItems rest items) :
      SpellsItems ('"' :: (w ++ '"' :: (g ++ ',' :: (g' ++ rest)))) (s :: items)

/-- The spellings of a value. A number has to be in range. -/
inductive Spells : List Char → ParameterValue → Prop where
  | true : Spells ['t', 'r', 'u', 'e'] (bool true)
  | false : Spells ['f', 'a', 'l', 's', 'e'] (bool false)
  | number {w : List Char} {t : NumberText} {v : Json} {p : ParameterValue}
      (hw : SpellsNumber w t) (hv : t.value? = some v) (hp : ofJson? v = some p) : Spells w p
  | string {w : List Char} {s : String} (hw : Body w s.toList) :
      Spells ('"' :: (w ++ ['"'])) (string s)
  | emptyList {g : List Char} (hg : Gap g) : Spells ('[' :: (g ++ [']'])) (stringList [])
  | list {g w : List Char} {items : List String} (hg : Gap g) (h : SpellsItems w items) :
      Spells ('[' :: (g ++ w)) (stringList items)

/-- An argument is a spelling of a value, with blanks around it. -/
def SpelledBy (p : ParameterValue) (argument : String) : Prop :=
  ∃ before w after,
    argument.toList = before ++ (w ++ after) ∧ Gap before ∧ Gap after ∧ Spells w p

variable {p : ParameterValue} {argument : String} {items : List String}
  {fuel : Nat} {g s r w after rest : List Char}

/-! ## Spellings are read -/

theorem SpellsItems.length_lt (h : SpellsItems w items) : items.length < w.length := by
  induction h with
  | last =>
    simp only [List.length_cons, List.length_append, List.length_nil]
    omega
  | cons _ _ _ _ ih =>
    simp only [List.length_cons, List.length_append]
    omega

theorem readItems_of_spells (h : SpellsItems w items) (hg : Gap g) (hf : items.length < fuel) :
    readItems fuel (g ++ (w ++ rest)) = some (items.map .str, rest) := by
  induction h generalizing g fuel with
  | @last w g' s hw hg' =>
    obtain ⟨fuel, rfl⟩ : ∃ n, fuel = n + 2 := ⟨fuel - 2, by simp at hf; omega⟩
    simp only [List.cons_append, List.append_assoc, List.nil_append]
    rw [readItems, Json.readValue_of_body hg hw]
    simp only [Option.bind_eq_bind, Option.bind_some, Json.skipBlank_append hg',
      Json.skipBlank_cons (show ¬isBlank ']' by decide), String.ofList_toList, List.map_cons,
      List.map_nil]
  | @cons w g' g'' more s items hw hg' hg'' h ih =>
    obtain ⟨fuel, rfl⟩ : ∃ n, fuel = n + 2 := ⟨fuel - 2, by simp at hf; omega⟩
    have hmore : readItems (fuel + 1) (g'' ++ (more ++ rest)) = some (items.map .str, rest) :=
      ih hg'' (by simp at hf; omega)
    simp only [List.cons_append, List.append_assoc]
    rw [readItems, Json.readValue_of_body hg hw]
    simp only [Option.bind_eq_bind, Option.bind_some, Json.skipBlank_append hg',
      Json.skipBlank_cons (show ¬isBlank ',' by decide), hmore, Option.map_some,
      String.ofList_toList, List.map_cons]

/-- Blanks do not belong to a number. -/
theorem endsNumber_of_gap (hg : Gap g) : EndsNumber g := by
  intro c hc
  have hblank := hg c (List.mem_of_mem_head? hc)
  simp only [isBlank, decide_eq_true_eq] at hblank
  rcases hblank with rfl | rfl | rfl | rfl <;> decide

theorem not_blank_of_digit {c : Char} (h : isDigit c ∨ c = '-') :
    ¬isBlank c ∧ c ≠ '"' ∧ c ≠ '[' ∧ c ≠ '\x7b' := by
  refine ⟨fun hblank => ?_, ?_, ?_, ?_⟩
  · simp only [isBlank, decide_eq_true_eq] at hblank
    rcases hblank with rfl | rfl | rfl | rfl <;> exact absurd h (by decide)
  all_goals
    rintro rfl
    exact absurd h (by decide)

theorem readValue_of_spells (fuel : Nat) (h : Spells w p) (hg : Gap g) (hafter : Gap after)
    (hf : w.length ≤ fuel) :
    ∃ v, readValue (fuel + 1) (g ++ (w ++ after)) = some (v, after) ∧ ofJson? v = some p := by
  obtain ⟨-, hempty, hlist, hword⟩ := Json.readValue_forms hg fuel
  cases h with
  | true => exact ⟨.bool true, hword 't' _ (by decide) (by decide), rfl⟩
  | false => exact ⟨.bool false, hword 'f' _ (by decide) (by decide), rfl⟩
  | @number w t v p hw hv hp =>
    have hread := Json.readWord_of_spells hw hv (endsNumber_of_gap hafter)
    obtain ⟨c, u, rfl, hc⟩ := hw.exists_cons
    obtain ⟨hblank, hother⟩ := not_blank_of_digit hc
    exact ⟨v, (hword c _ hblank hother).trans hread, hp⟩
  | @string w s hw =>
    refine ⟨.str s, ?_, rfl⟩
    simp only [List.cons_append, List.append_assoc, List.nil_append]
    rw [Json.readValue_of_body hg hw, String.ofList_toList]
  | @emptyList g' hg' =>
    refine ⟨.arr [], ?_, rfl⟩
    simp only [List.cons_append, List.append_assoc, List.nil_append]
    exact hempty g' _ hg'
  | @list g' w items hg' hitems =>
    refine ⟨.arr (items.map .str), ?_, ofJson?_toJson (p := stringList items) trivial⟩
    have hlength := hitems.length_lt
    have hread : readItems fuel ([] ++ (w ++ after)) = some (items.map .str, after) :=
      readItems_of_spells hitems nofun (by simp at hf; omega)
    obtain ⟨u, rfl⟩ : ∃ u, w = '"' :: u := by cases hitems <;> exact ⟨_, rfl⟩
    simp only [List.cons_append, List.append_assoc, List.nil_append] at hread ⊢
    rw [hlist g' _ _ hg' (by decide) (by decide), hread, Option.map_some]

/-- Whatever spells a value is read as JSON for it. -/
theorem read?_of_spelledBy (h : p.SpelledBy argument) :
    (Json.read? argument).bind ofJson? = some p := by
  obtain ⟨before, w, after, harg, hbefore, hafter, hw⟩ := h
  obtain ⟨v, hread, hv⟩ := readValue_of_spells argument.toList.length hw hbefore hafter
    (by rw [harg, List.length_append, List.length_append]; omega)
  rw [← harg] at hread
  simp only [Json.read?, Json.readChars?, hread, Option.bind_eq_bind, Option.bind_some,
    Json.gap_iff.1 hafter, List.isEmpty_nil, if_true, hv]

/-! ## What is read is a spelling -/

theorem readValue_str {t : String} (h : readValue fuel s = some (.str t, r)) :
    ∃ g w, s = g ++ '"' :: (w ++ '"' :: r) ∧ Gap g ∧ Body w t.toList := by
  obtain ⟨g, u, rfl, hg, ⟨w, t', rfl, hw, ht⟩ | ⟨_, _, _, ht⟩ | ⟨_, _, _, _, _, _, ht, _⟩ |
    ⟨_, ht⟩ | hword⟩ := Json.readValue_cases h
  · cases ht
    exact ⟨g, w, rfl, hg, by rwa [String.toList_ofList]⟩
  · cases ht
  · cases ht
  · cases ht
  · obtain ⟨_, ht⟩ | ⟨_, ht⟩ | ht | ⟨_, n, _, _, hn⟩ := Json.readWord_cases hword
    · cases ht
    · cases ht
    · cases ht
    · obtain ⟨_, ht⟩ | ⟨_, ht⟩ := Json.value?_cases hn <;> cases ht

theorem exists_spellsItems_of_read {vs : List Json} (h : readItems fuel s = some (vs, r))
    (hvs : vs.mapM Json.string? = some items) :
    ∃ g w, s = g ++ (w ++ r) ∧ Gap g ∧ SpellsItems w items := by
  induction fuel generalizing s vs items with
  | zero => cases h
  | succ fuel ih =>
    obtain ⟨v, g', u, hread, hg', hcases⟩ := Json.readItems_cases h
    have hitem {t : String} (ht : v.string? = some t) :
        ∃ g w, s = g ++ '"' :: (w ++ '"' :: (g' ++ u)) ∧ Gap g ∧ Body w t.toList := by
      cases v <;> cases ht
      exact readValue_str hread
    rcases hcases with ⟨u', us, rfl, hmore, rfl⟩ | ⟨rfl, rfl⟩
    · rw [List.mapM_cons] at hvs
      obtain ⟨t, ht, hvs⟩ := Option.bind_eq_some_iff.1 hvs
      obtain ⟨items, hitems, hvs⟩ := Option.bind_eq_some_iff.1 hvs
      cases hvs
      obtain ⟨g, w, rfl, hg, hw⟩ := hitem ht
      obtain ⟨g'', w', rfl, hg'', hw'⟩ := ih hmore hitems
      exact ⟨g, '"' :: (w ++ '"' :: (g' ++ ',' :: (g'' ++ w'))), by simp, hg,
        .cons hw hg' hg'' hw'⟩
    · rw [List.mapM_cons] at hvs
      obtain ⟨t, ht, hvs⟩ := Option.bind_eq_some_iff.1 hvs
      cases hvs
      obtain ⟨g, w, rfl, hg, hw⟩ := hitem ht
      exact ⟨g, '"' :: (w ++ '"' :: (g' ++ [']'])), by simp, hg, .last hw hg'⟩

theorem exists_spells_of_read {v : Json} (h : readValue fuel s = some (v, r))
    (hv : ofJson? v = some p) : ∃ g w, s = g ++ (w ++ r) ∧ Gap g ∧ Spells w p := by
  obtain ⟨g, u, rfl, hg, ⟨w, t, rfl, hw, rfl⟩ | ⟨g', rfl, hg', rfl⟩ |
    ⟨g', u', fuel', vs, rfl, hg', rfl, hread⟩ | ⟨_, rfl⟩ | hword⟩ := Json.readValue_cases h
  · cases hv
    exact ⟨g, '"' :: (w ++ ['"']), by simp, hg, .string (by rwa [String.toList_ofList])⟩
  · cases hv
    exact ⟨g, '[' :: (g' ++ [']']), by simp, hg, .emptyList hg'⟩
  · obtain ⟨items, hitems, rfl⟩ := Option.map_eq_some_iff.1 hv
    obtain ⟨g'', w, rfl, hg'', hw⟩ := exists_spellsItems_of_read hread hitems
    refine ⟨g, '[' :: (g' ++ g'' ++ w), by simp, hg, .list (fun c hc => ?_) hw⟩
    exact (List.mem_append.1 hc).elim (hg' c) (hg'' c)
  · cases hv
  · obtain ⟨rfl, rfl⟩ | ⟨rfl, rfl⟩ | rfl | ⟨w, t, rfl, hw, ht⟩ := Json.readWord_cases hword
    · cases hv
      exact ⟨g, _, rfl, hg, .true⟩
    · cases hv
      exact ⟨g, _, rfl, hg, .false⟩
    · cases hv
    · exact ⟨g, w, rfl, hg, .number hw ht hv⟩

/-- Whatever is read as JSON for a value spells it. -/
theorem spelledBy_of_read? (h : (Json.read? argument).bind ofJson? = some p) :
    p.SpelledBy argument := by
  obtain ⟨v, hread, hv⟩ := Option.bind_eq_some_iff.1 h
  obtain ⟨⟨v', after⟩, hvalue, hafter⟩ := Option.bind_eq_some_iff.1 hread
  obtain ⟨hend, hafter⟩ := Option.ite_none_right_eq_some.1 hafter
  cases hafter
  obtain ⟨before, w, hs, hbefore, hw⟩ := exists_spells_of_read hvalue hv
  exact ⟨before, w, after, hs, hbefore, Json.gap_iff.2 (List.isEmpty_iff.1 hend), hw⟩

/-! ## What is written is a spelling -/

theorem spellsItems_writeItems (hne : items ≠ []) :
    SpellsItems (Json.writeItems (items.map .str) ++ [']']) items := by
  induction items with
  | nil => exact absurd rfl hne
  | cons s items ih =>
    have hbody := Json.body_flatMap_escapeChar s.toList
    cases items with
    | nil =>
      simp only [List.map_cons, List.map_nil, Json.writeItems, Json.write_str, List.cons_append,
        List.append_assoc, List.nil_append]
      exact .last hbody Json.gap_nil
    | cons t items =>
      have hitems :=
        SpellsItems.cons hbody Json.gap_nil Json.gap_nil (ih (List.cons_ne_nil t items))
      simp only [List.map_cons, Json.writeItems, Json.write_str, List.cons_append,
        List.append_assoc, List.nil_append] at hitems ⊢
      exact hitems

/-- What is written for a value spells it, unless it is a floating-point number. -/
theorem spells_write (h : ∀ x, p ≠ float x) : Spells p.toJson.write p := by
  cases p with
  | bool b =>
    cases b with
    | true => exact .true
    | false => exact .false
  | int i =>
    obtain ⟨ds, hw, hvalue⟩ := Json.spellsNumber_intText i.toInt
    have hmax : i.toInt < UInt64.size := Int.lt_of_le_of_lt i.toInt_le (by decide)
    exact .number hw (Json.value?_of_integer i.minValue_le_toInt hmax hvalue)
      (ofJson?_toJson (p := int i) trivial)
  | float x => exact absurd rfl (h x)
  | string s =>
    rw [toJson, Json.write_str]
    exact .string (Json.body_flatMap_escapeChar s.toList)
  | stringList items =>
    rw [toJson, Json.strings, Json.write]
    cases items with
    | nil => exact .emptyList Json.gap_nil
    | cons s items =>
      have hlist := spellsItems_writeItems (List.cons_ne_nil s items)
      exact (Spells.list Json.gap_nil hlist :)

/-! ## Arguments -/

/-- A number gives an integer or a floating-point number. -/
theorem cases_of_number {t : NumberText} {v : Json} (hv : t.value? = some v)
    (hp : ofJson? v = some p) : (∃ i, p = int i) ∨ ∃ x, p = float x := by
  obtain ⟨i, rfl⟩ | ⟨x, rfl⟩ := Json.value?_cases hv
  · rw [ofJson?] at hp
    split at hp <;> cases hp
    · exact .inl ⟨_, rfl⟩
    · exact .inr ⟨_, rfl⟩
  · cases hp
    exact .inr ⟨x, rfl⟩

/-- An argument is not a spelling of itself, as a text has quotes around it. -/
theorem not_spelledBy_self (argument : String) : ¬ (string argument).SpelledBy argument := by
  rintro ⟨before, w, after, hs, -, -, hw⟩
  generalize hp : string argument = p at hw
  cases hw with
  | string hbody =>
    cases hp
    have hlength := hbody.length_le
    rw [hs] at hlength
    simp only [List.length_append, List.length_cons] at hlength
    omega
  | number _ hv hvalue =>
    subst hp
    obtain ⟨_, hp⟩ | ⟨_, hp⟩ := cases_of_number hv hvalue <;> cases hp
  | _ => cases hp

theorem ofArgument_of_spelledBy (h : p.SpelledBy argument) : ofArgument argument = p := by
  rw [ofArgument, read?_of_spelledBy h, Option.getD_some]

/-- An argument gives the value that it spells, whatever blanks stand around it: the text that is
written for a value, unless that is a floating-point number, gives that value. And an argument is
taken for a text, character by character as it stands, unless it spells a value. -/
theorem ofArgument_spelled :
    (∀ p : ParameterValue, (∀ x, p ≠ float x) → ∀ before after : String,
      (∀ c ∈ before.toList, isBlank c) → (∀ c ∈ after.toList, isBlank c) →
      ofArgument (before ++ p.toJson.text ++ after) = p) ∧
    (∀ (p : ParameterValue) argument, p.SpelledBy argument → ofArgument argument = p) ∧
    ∀ argument, ofArgument argument ≠ string argument ↔
      ∃ p : ParameterValue, p.SpelledBy argument := by
  refine ⟨fun p hp before after hbefore hafter => ofArgument_of_spelledBy ?_,
    fun p argument h => ofArgument_of_spelledBy h, fun argument => ⟨fun h => ?_, ?_⟩⟩
  · refine ⟨before.toList, p.toJson.write, after.toList, ?_, hbefore, hafter, spells_write hp⟩
    rw [String.toList_append, String.toList_append, Json.text, String.toList_ofList,
      List.append_assoc]
  · cases hread : (Json.read? argument).bind ofJson? with
    | none => exact absurd (by rw [ofArgument, hread, Option.getD_none]) h
    | some p => exact ⟨p, spelledBy_of_read? hread⟩
  · rintro ⟨p, hp⟩ hself
    rw [ofArgument_of_spelledBy hp] at hself
    exact not_spelledBy_self argument (hself ▸ hp)

/-- A list of two texts between line ends, the second with a quote and a control character, and one
of a text that is spelled by a pair of surrogates. -/
theorem ofArgument_spelled_list :
    ((∀ x, stringList ["😀", "\"\x01"] ≠ float x) ∧
      ofArgument ("\n " ++ (stringList ["😀", "\"\x01"]).toJson.text ++ "\r\n") =
        stringList ["😀", "\"\x01"]) ∧
    (stringList ["😀"]).SpelledBy "[ \"\\uD83D\\ude00\" ]" ∧
      ofArgument "[ \"\\uD83D\\ude00\" ]" = stringList ["😀"] :=
  have hfloat : ∀ x, stringList ["😀", "\"\x01"] ≠ float x := fun _ h => by cases h
  have hspelled : (stringList ["😀"]).SpelledBy "[ \"\\uD83D\\ude00\" ]" :=
    spelledBy_of_read? (by decide +kernel)
  have hbefore : ∀ c ∈ "\n ".toList, isBlank c := List.all_eq_true.1 (by decide +kernel)
  have hafter : ∀ c ∈ "\r\n".toList, isBlank c := List.all_eq_true.1 (by decide +kernel)
  ⟨⟨hfloat, ofArgument_spelled.1 _ hfloat "\n " "\r\n" hbefore hafter⟩, hspelled,
    ofArgument_spelled.2.1 _ _ hspelled⟩

example : ofArgument "[\"a\", 1]" = string "[\"a\", 1]" := by decide +kernel

end ParameterValue

end Mediatheque
