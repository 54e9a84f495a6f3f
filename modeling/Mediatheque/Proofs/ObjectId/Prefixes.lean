import Mathlib.Data.List.Basic
import Mediatheque.ObjectId

/-!
# The way from the root to an id

The path prefixes of a text are its beginnings, at least a character long, that end before
a slash or with the text itself (`IsPathPrefix`). `prefixes` lists them all, each longer
than the one before (`mem_prefixesFrom_iff`, `pairwise_prefixesFrom`). Any end of the list
is what lies ahead of the path prefix before it (`Ahead`), so that its head is the next path
prefix (`Ahead.isNextPrefix_iff`).
-/

namespace Mediatheque

namespace ObjectId

/-- Whether a text is a beginning of another, at least a character long, that ends before
a slash or with that text. -/
def IsPathPrefix (text p : List Char) : Prop := p ≠ [] ∧ (p = text ∨ p ++ ['/'] <+: text)

/-- Whether a text is the shortest path prefix of another with more than `n` characters. -/
def IsNextPrefix (text : List Char) (n : Nat) (p : List Char) : Prop :=
  IsPathPrefix text p ∧ n < p.length ∧
    ∀ q, IsPathPrefix text q → n < q.length → p.length ≤ q.length

theorem IsPathPrefix.isPrefix {text p : List Char} (h : IsPathPrefix text p) : p <+: text := by
  rcases h.2 with rfl | h
  · exact List.prefix_rfl
  · exact (List.prefix_append p ['/']).trans h

/-- Path prefixes of one length are the same. -/
theorem IsPathPrefix.eq_of_length {text p q : List Char} (hp : IsPathPrefix text p)
    (hq : IsPathPrefix text q) (h : p.length = q.length) : p = q := by
  rw [List.prefix_iff_eq_take.1 hp.isPrefix, List.prefix_iff_eq_take.1 hq.isPrefix, h]

theorem IsNextPrefix.unique {text p q : List Char} {n : Nat} (hp : IsNextPrefix text n p)
    (hq : IsNextPrefix text n q) : p = q :=
  hp.1.eq_of_length hq.1 (Nat.le_antisymm (hp.2.2 q hq.1 hq.2.1) (hq.2.2 p hp.1 hp.2.1))

/-! ## The list of path prefixes -/

theorem prefixesFrom_cons_slash (done rest : List Char) :
    prefixesFrom done ('/' :: rest) = done :: prefixesFrom (done ++ ['/']) rest := by
  rw [prefixesFrom, if_pos rfl]

theorem prefixesFrom_cons_of_ne {c : Char} (h : c ≠ '/') (done rest : List Char) :
    prefixesFrom done (c :: rest) = prefixesFrom (done ++ [c]) rest := by
  rw [prefixesFrom, if_neg h]

/-- The last path prefix is the text itself. -/
theorem getLast?_prefixesFrom (done rest : List Char) :
    (prefixesFrom done rest).getLast? = some (done ++ rest) := by
  induction rest generalizing done with
  | nil => simp [prefixesFrom]
  | cons c rest ih =>
    by_cases hc : c = '/'
    · rw [hc, prefixesFrom_cons_slash, List.getLast?_cons, ih, Option.getD_some]
      simp
    · rw [prefixesFrom_cons_of_ne hc, ih]
      simp

theorem cons_ends_iff {c d : Char} {s rest : List Char} :
    (d :: s = c :: rest ∨ d :: s ++ ['/'] <+: c :: rest) ↔
      d = c ∧ (s = rest ∨ s ++ ['/'] <+: rest) := by
  rw [List.cons_append, List.cons_prefix_cons, List.cons.injEq, and_or_left]

theorem mem_prefixesFrom_iff {done rest p : List Char} :
    p ∈ prefixesFrom done rest ↔
      ∃ s, p = done ++ s ∧ (s = rest ∨ s ++ ['/'] <+: rest) := by
  induction rest generalizing done with
  | nil => simp [prefixesFrom]
  | cons c rest ih =>
    by_cases hc : c = '/'
    · subst hc
      rw [prefixesFrom_cons_slash, List.mem_cons, ih]
      constructor
      · rintro (rfl | ⟨s, rfl, hs⟩)
        · exact ⟨[], by simp⟩
        · exact ⟨'/' :: s, by simp, cons_ends_iff.2 ⟨rfl, hs⟩⟩
      · rintro ⟨s, rfl, hs⟩
        cases s with
        | nil => simp
        | cons d s =>
          obtain ⟨rfl, ht⟩ := cons_ends_iff.1 hs
          exact .inr ⟨s, by simp, ht⟩
    · rw [prefixesFrom_cons_of_ne hc, ih]
      constructor
      · rintro ⟨s, rfl, hs⟩
        exact ⟨c :: s, by simp, cons_ends_iff.2 ⟨rfl, hs⟩⟩
      · rintro ⟨s, rfl, hs⟩
        cases s with
        | nil => simp [Ne.symm hc] at hs
        | cons d s =>
          obtain ⟨rfl, ht⟩ := cons_ends_iff.1 hs
          exact ⟨s, by simp, ht⟩

theorem length_le_of_mem_prefixesFrom {done rest p : List Char} (h : p ∈ prefixesFrom done rest) :
    done.length ≤ p.length := by
  obtain ⟨s, rfl, -⟩ := mem_prefixesFrom_iff.1 h
  rw [List.length_append]
  omega

/-- Each path prefix is longer than the ones before. -/
theorem pairwise_prefixesFrom (done rest : List Char) :
    (prefixesFrom done rest).Pairwise fun p q => p.length < q.length := by
  induction rest generalizing done with
  | nil => simp [prefixesFrom]
  | cons c rest ih =>
    rw [prefixesFrom]
    split
    · refine List.pairwise_cons.2 ⟨fun q hq => ?_, ih _⟩
      have := length_le_of_mem_prefixesFrom hq
      rw [List.length_append, List.length_singleton] at this
      omega
    · exact ih _

/-- What is listed of a text with more behind it goes on behind what is listed of it. -/
theorem prefixesFrom_append_slash (done rest t : List Char) :
    prefixesFrom done (rest ++ '/' :: t) =
      prefixesFrom done rest ++ prefixesFrom (done ++ rest ++ ['/']) t := by
  induction rest generalizing done with
  | nil => simp [prefixesFrom]
  | cons c rest ih =>
    by_cases hc : c = '/'
    · rw [hc, List.cons_append, prefixesFrom_cons_slash, ih, prefixesFrom_cons_slash]
      simp
    · rw [List.cons_append, prefixesFrom_cons_of_ne hc, ih, prefixesFrom_cons_of_ne hc]
      simp

/-- A rest without a slash is taken in one step. -/
theorem prefixesFrom_of_not_mem {rest : List Char} (h : '/' ∉ rest) (done : List Char) :
    prefixesFrom done rest = [done ++ rest] := by
  induction rest generalizing done with
  | nil => simp [prefixesFrom]
  | cons c rest ih =>
    obtain ⟨hc, hrest⟩ := not_or.1 (mt List.mem_cons.2 h)
    rw [prefixesFrom_cons_of_ne (Ne.symm hc), ih hrest]
    simp

/-! ## What lies ahead -/

/-- The path prefixes of a text with more than `n` characters, the shorter ones first. -/
structure Ahead (text : List Char) (n : Nat) (steps : List (List Char)) : Prop where
  pairwise : steps.Pairwise fun p q => p.length < q.length
  mem_iff : ∀ p, p ∈ steps ↔ IsPathPrefix text p ∧ n < p.length

theorem ahead_prefixesFrom (c : Char) (rest : List Char) :
    Ahead (c :: rest) 0 (prefixesFrom [c] rest) := by
  refine ⟨pairwise_prefixesFrom [c] rest, fun p => ?_⟩
  rw [mem_prefixesFrom_iff]
  constructor
  · rintro ⟨s, rfl, hs⟩
    exact ⟨⟨List.cons_ne_nil c s, cons_ends_iff.2 ⟨rfl, hs⟩⟩, Nat.succ_pos _⟩
  · rintro ⟨⟨-, hp⟩, hlt⟩
    cases p with
    | nil => exact absurd hlt (Nat.lt_irrefl 0)
    | cons d s =>
      obtain ⟨rfl, hs⟩ := cons_ends_iff.1 hp
      exact ⟨s, rfl, hs⟩

namespace Ahead

variable {text p q : List Char} {n : Nat} {steps : List (List Char)}

theorem not_isNextPrefix (h : Ahead text n []) : ¬ IsNextPrefix text n p := by
  intro hp
  have := (h.mem_iff p).2 ⟨hp.1, hp.2.1⟩
  cases this

/-- The first that lies ahead is the next path prefix. -/
theorem isNextPrefix (h : Ahead text n (p :: steps)) : IsNextPrefix text n p := by
  obtain ⟨hp, hlt⟩ := (h.mem_iff p).1 List.mem_cons_self
  refine ⟨hp, hlt, fun q hq hnq => ?_⟩
  rcases List.mem_cons.1 ((h.mem_iff q).2 ⟨hq, hnq⟩) with rfl | hmem
  · exact Nat.le_refl _
  · exact Nat.le_of_lt ((List.pairwise_cons.1 h.pairwise).1 q hmem)

theorem isNextPrefix_iff (h : Ahead text n (p :: steps)) : IsNextPrefix text n q ↔ q = p :=
  ⟨fun hq => hq.unique h.isNextPrefix, fun hq => hq ▸ h.isNextPrefix⟩

theorem tail (h : Ahead text n (p :: steps)) : Ahead text p.length steps := by
  obtain ⟨hp, hs⟩ := List.pairwise_cons.1 h.pairwise
  refine ⟨hs, fun q => ⟨fun hq => ?_, fun ⟨hq, hlt⟩ => ?_⟩⟩
  · exact ⟨((h.mem_iff q).1 (List.mem_cons_of_mem p hq)).1, hp q hq⟩
  · have hn := h.isNextPrefix.2.1
    rcases List.mem_cons.1 ((h.mem_iff q).2 ⟨hq, by omega⟩) with rfl | hmem
    · omega
    · exact hmem

end Ahead

end ObjectId

end Mediatheque
