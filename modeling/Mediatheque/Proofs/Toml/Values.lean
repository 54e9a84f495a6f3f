import Mediatheque.Proofs.Toml.Numbers
import Mediatheque.Proofs.Toml.Strings

/-!
# Reading lists

Every spelling of the items of a list is read as the items (`readItems_of_spellsItems`). Between
two items a reader skips all blanks and line ends (`skipAllLines_gap`).
-/

namespace Mediatheque

namespace Toml

variable {c : Char} {g t s u rest : List Char} {items : List String} {fuel depth : Nat}

/-! ## Gaps -/

/-- The characters behind a gap: an item starts, or one of the marks behind it. -/
def EndsGap (c : Char) : Prop := IsQuote c ∨ c = ',' ∨ c = ']'

/-- A gap that does not end in its first line has a line end behind its first blanks. -/
theorem Gap.dropWhile_eq_cons {d : Char} {g' : List Char} (hg : Gap g)
    (hd : g.dropWhile isBlank = d :: g') : d = '\n' ∧ Gap g' ∧ g'.length < g.length := by
  have hsuffix := List.dropWhile_suffix isBlank (l := g)
  have hblank := List.head?_dropWhile_not isBlank g
  rw [hd] at hsuffix hblank
  refine ⟨?_, fun c hc => hg c (hsuffix.subset (List.mem_cons_of_mem _ hc)), hsuffix.length_le⟩
  rcases hg d (hsuffix.subset List.mem_cons_self) with h | h
  · exact absurd h (by simpa using hblank)
  · exact h

theorem skipLines_gap (hg : Gap g) (hc : EndsGap c) (hf : g.length < fuel) :
    skipLines fuel (g ++ c :: u) = c :: u := by
  have hblank : ¬isBlank c := by rcases hc with (rfl | rfl) | rfl | rfl <;> decide
  have hend : lineEnd? (skipComment (c :: u)) = none := by
    rcases hc with (rfl | rfl) | rfl | rfl <;> rfl
  induction fuel generalizing g with
  | zero => contradiction
  | succ fuel ih =>
    rw [skipLines, skipBlank, List.dropWhile_append]
    cases hd : g.dropWhile isBlank with
    | nil => rw [List.isEmpty_nil, if_pos rfl, List.dropWhile_cons_of_neg hblank, hend]
    | cons d g' =>
      obtain ⟨rfl, hg', hlength⟩ := hg.dropWhile_eq_cons hd
      exact ih hg' (by omega)

theorem skipAllLines_gap (hg : Gap g) (hc : EndsGap c) :
    skipAllLines (g ++ c :: u) = c :: u :=
  skipLines_gap hg hc length_lt_append

/-- A gap and what ends it are no part of the item before. -/
theorem Gap.head?_ne (hg : Gap g) (hc : ¬IsQuote c) (q : Char) (hq : IsQuote q) :
    (g ++ c :: u).head? ≠ some q := by
  rintro h
  cases g with
  | nil => exact hc (Option.some.inj h ▸ hq)
  | cons d g =>
    rcases hg d List.mem_cons_self with hd | hd <;> cases h <;> rcases hq with rfl | rfl <;>
      contradiction

/-! ## Lists -/

theorem Spells.exists_cons (h : Spells t s) : ∃ c u, t = c :: u ∧ IsQuote c := by
  cases h with
  | short h =>
    obtain ⟨hq, h⟩ := h
    exact ⟨_, _, rfl, hq⟩
  | long hq ht h => exact ⟨_, _, rfl, hq⟩
  | lines hq h => exact ⟨_, _, rfl, hq⟩

theorem SpellsItems.exists_cons (h : SpellsItems t items) : ∃ c u, t = c :: u ∧ EndsGap c := by
  cases h with
  | nil => exact ⟨_, _, rfl, .inr (.inr rfl)⟩
  | last ht hg =>
    obtain ⟨c, u, rfl, hc⟩ := ht.exists_cons
    exact ⟨c, _, rfl, .inl hc⟩
  | cons ht hg hg' h =>
    obtain ⟨c, u, rfl, hc⟩ := ht.exists_cons
    exact ⟨c, _, rfl, .inl hc⟩

theorem readValue_of_isQuote (hc : IsQuote c) :
    readValue (fuel + 1) depth (c :: u) =
      (readString (c :: u)).map fun (t, r) => (.string (String.ofList t), r) := by
  rcases hc with rfl | rfl <;> rfl

theorem readValue_of_spells (h : Spells t s) (hrest : ∀ q, IsQuote q → rest.head? ≠ some q) :
    readValue (fuel + 1) depth (t ++ rest) = some (.string (String.ofList s), rest) := by
  have hread := readString_of_spells h hrest
  obtain ⟨c, u, rfl, hc⟩ := h.exists_cons
  rw [List.cons_append] at hread ⊢
  rw [readValue_of_isQuote hc, hread, Option.map_some]

theorem readItems_of_isQuote (hc : IsQuote c) :
    readItems (fuel + 1) depth (c :: u) = (do
      let (v, s) ← readValue fuel depth (c :: u)
      match skipAllLines s with
      | ',' :: s =>
        (readItems fuel depth (skipAllLines s)).map fun (vs, r) => (v :: vs, r)
      | ']' :: s => some ([v], s)
      | _ => none) := by
  rcases hc with rfl | rfl <;> rfl

/-- The first item of a list is read up to the gap behind it. -/
theorem readItems_append (ht : Spells t s) (hg : Gap g) (hc : c = ',' ∨ c = ']') :
    readItems (fuel + 2) depth (t ++ (g ++ c :: u)) =
      if c = ',' then
        (readItems (fuel + 1) depth (skipAllLines u)).map fun (vs, r) =>
          (.string (String.ofList s) :: vs, r)
      else some ([.string (String.ofList s)], u) := by
  have hcquote : ¬IsQuote c := by rcases hc with rfl | rfl <;> (rintro (h | h) <;> contradiction)
  have hread : readValue (fuel + 1) depth (t ++ (g ++ c :: u)) = _ :=
    readValue_of_spells ht (hg.head?_ne hcquote)
  obtain ⟨q, v, rfl, hq⟩ := ht.exists_cons
  rw [List.cons_append] at hread ⊢
  rw [readItems_of_isQuote hq, hread, Option.bind_eq_bind, Option.bind_some]
  dsimp only
  rw [skipAllLines_gap hg (.inr hc)]
  rcases hc with rfl | rfl <;> rfl

/-- Every spelling of the items of a list is read as the items. -/
theorem readItems_of_spellsItems (h : SpellsItems t items) (hf : t.length < fuel) :
    readItems fuel depth (t ++ rest) = some (items.map .string, rest) := by
  induction h generalizing fuel with
  | nil =>
    obtain ⟨fuel, rfl⟩ := Nat.exists_eq_add_of_lt hf
    rfl
  | last ht hg =>
    obtain _ | _ | fuel := fuel
    · contradiction
    · simp at hf
    · simp only [List.append_assoc, List.singleton_append]
      rw [readItems_append ht hg (.inr rfl), if_neg (by decide), String.ofList_toList]
      rfl
  | @cons t g g' rest' s items ht hg hg' h ih =>
    obtain _ | _ | fuel := fuel
    · contradiction
    · simp at hf
    · obtain ⟨c, u, rfl, hc⟩ := h.exists_cons
      simp only [List.append_assoc, List.cons_append]
      rw [readItems_append ht hg (.inl rfl), if_pos rfl, skipAllLines_gap hg' hc,
        ← List.cons_append, ih (by simp at hf ⊢; omega), Option.map_some, String.ofList_toList]
      rfl

end Toml

end Mediatheque
