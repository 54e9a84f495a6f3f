import Mediatheque.Catalog.Basic
import Mediatheque.Proofs.Text.ByteOrder

/-!
# The order of the root listing

Top-level containers stand in the order of their ranks, the ones without a rank last,
and those of one rank in the order of the bytes of their labels (`InOrder`). The order
is total and transitive, but two containers may tie. `rootOrder` decides its strict part
(`inOrder_iff`), so that a container put before the first that has to stand behind it
leaves a listing in order (`inOrder_insertIdx`).
-/

namespace Mediatheque

/-- Whether a top-level container may stand before another in the listing of the root. -/
def InOrder (a b : Container) : Prop :=
  match a.mediaClass.rootRank?, b.mediaClass.rootRank? with
  | some m, some n => m < n ∨ m = n ∧ bytes a.label ≤ bytes b.label
  | some _, none => True
  | none, some _ => False
  | none, none => bytes a.label ≤ bytes b.label

/-! ## Ranks -/

/-- No rank of the table is as high as the one that stands for a class without a rank. -/
theorem rank_lt_of_mem_table : ∀ f ∈ RootFolder.table, f.rank < UInt32.size - 1 := by decide

theorem rootRank?_lt {c : MediaClass} {r : Nat} (h : c.rootRank? = some r) :
    r < UInt32.size - 1 := by
  obtain ⟨f, hf, rfl⟩ := Option.map_eq_some_iff.1 h
  exact rank_lt_of_mem_table f (List.mem_of_find?_eq_some hf)

theorem sortRank_of_some {c : MediaClass} {r : Nat} (h : c.rootRank? = some r) :
    c.sortRank = r := by
  rw [MediaClass.sortRank, h, Option.getD_some]

theorem sortRank_of_none {c : MediaClass} (h : c.rootRank? = none) :
    c.sortRank = UInt32.size - 1 := by
  rw [MediaClass.sortRank, h, Option.getD_none]

/-! ## The strict order -/

theorem rootOrder_iff {a b : Container} : rootOrder a b = true ↔
    a.mediaClass.sortRank < b.mediaClass.sortRank ∨
      a.mediaClass.sortRank = b.mediaClass.sortRank ∧ a.label < b.label := by
  simp [rootOrder]

theorem label_le_iff {a b : Container} : bytes a.label ≤ bytes b.label ↔ ¬ b.label < a.label :=
  not_congr bytes_lt_bytes_iff

/-- The order is the one that `rootOrder` decides: a container may stand before another
unless that one has to stand before it. -/
theorem inOrder_iff {a b : Container} : InOrder a b ↔ rootOrder b a = false := by
  rw [← Bool.not_eq_true, rootOrder_iff, InOrder]
  cases ha : a.mediaClass.rootRank? with
  | none =>
    have ra := sortRank_of_none ha
    cases hb : b.mediaClass.rootRank? with
    | none =>
      rw [ra, sortRank_of_none hb, label_le_iff]
      simp
    | some n =>
      rw [ra, sortRank_of_some hb]
      exact iff_of_false not_false fun h => h (.inl (rootRank?_lt hb))
  | some m =>
    have ra := sortRank_of_some ha
    cases hb : b.mediaClass.rootRank? with
    | none =>
      have hm := rootRank?_lt ha
      rw [ra, sortRank_of_none hb]
      refine iff_of_true trivial ?_
      rintro (h | ⟨h, -⟩) <;> omega
    | some n =>
      rw [ra, sortRank_of_some hb, label_le_iff]
      rcases Nat.lt_trichotomy m n with h | rfl | h
      · simp [h, Nat.lt_asymm h, Nat.ne_of_gt h]
      · simp
      · simp [h, Nat.lt_asymm h, Nat.ne_of_gt h]

/-- A container that has to stand before another may stand before it. -/
theorem inOrder_of_rootOrder {a b : Container} (h : rootOrder a b = true) : InOrder a b := by
  rw [inOrder_iff, ← Bool.not_eq_true, rootOrder_iff]
  rcases rootOrder_iff.1 h with h | ⟨e, h⟩
  · rintro (h' | ⟨e', -⟩) <;> omega
  · rintro (h' | ⟨-, h'⟩)
    · omega
    · exact String.lt_asymm h h'

theorem InOrder.trans {a b c : Container} (hab : InOrder a b) (hbc : InOrder b c) :
    InOrder a c := by
  rw [inOrder_iff, ← Bool.not_eq_true, rootOrder_iff, not_or, not_and] at *
  refine ⟨by omega, fun e h => ?_⟩
  have e₁ : b.mediaClass.sortRank = a.mediaClass.sortRank := by omega
  have e₂ : c.mediaClass.sortRank = b.mediaClass.sortRank := by omega
  exact hab.2 e₁ (Std.lt_of_le_of_lt (String.not_lt.1 (hbc.2 e₂)) h)

/-! ## Insertion -/

namespace Catalog

theorem insertPosition_le (x : Container) (l : List Container) :
    insertPosition x l ≤ l.length :=
  List.findIdx_le_length

/-- A container that is put in comes first if the first of the listing has to stand
behind it, and else stands in the rest of the listing. -/
theorem insertIdx_insertPosition_cons (x a : Container) (l : List Container) :
    (a :: l).insertIdx (insertPosition x (a :: l)) x =
      if rootOrder x a then x :: a :: l else a :: l.insertIdx (insertPosition x l) x := by
  rw [insertPosition, List.findIdx_cons]
  cases rootOrder x a with
  | true => simp
  | false => simp [insertPosition]

theorem inOrder_insertIdx (x : Container) {l : List Container} (h : l.Pairwise InOrder) :
    (l.insertIdx (insertPosition x l) x).Pairwise InOrder := by
  induction l with
  | nil => simp [insertPosition]
  | cons a l ih =>
    obtain ⟨ha, hl⟩ := List.pairwise_cons.1 h
    rw [insertIdx_insertPosition_cons]
    split
    · rename_i hx
      have hxa := inOrder_of_rootOrder hx
      refine List.pairwise_cons.2 ⟨fun b hb => ?_, h⟩
      rcases List.mem_cons.1 hb with rfl | hb
      · exact hxa
      · exact hxa.trans (ha b hb)
    · rename_i hx
      refine List.pairwise_cons.2 ⟨fun b hb => ?_, ih hl⟩
      rcases (List.mem_insertIdx (insertPosition_le x l)).1 hb with rfl | hb
      · rw [inOrder_iff]
        simpa using hx
      · exact ha b hb

end Catalog

end Mediatheque
