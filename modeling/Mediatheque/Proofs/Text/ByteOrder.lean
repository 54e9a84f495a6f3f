import Mathlib.Data.List.Basic

/-!
# The order of texts is that of their bytes

Texts are compared character by character, by code point. Their UTF-8 bytes compare
alike (`bytes_lt_bytes_iff`), because of two characters the smaller one has the smaller
byte at the first place where their bytes differ (`encode_append_lt`).
-/

namespace Mediatheque

/-- The UTF-8 bytes of a text. -/
def bytes (s : String) : List UInt8 := s.toUTF8.data.toList

theorem bytes_eq_flatMap (s : String) : bytes s = s.toList.flatMap String.utf8EncodeChar := by
  show s.toByteArray.data.toList = _
  rw [← String.utf8Encode_toList, List.utf8Encode, List.toList_data_toByteArray]

/-- A smaller number has a smaller quotient, or else the same one and a smaller remainder. -/
theorem div_lt_or_mod_lt {m n : Nat} (k : Nat) (h : m < n) :
    m / k < n / k ∨ m / k = n / k ∧ m % k < n % k := by
  rcases Nat.lt_or_eq_of_le (Nat.div_le_div_right (c := k) (Nat.le_of_lt h)) with hq | hq
  · exact .inl hq
  · refine .inr ⟨hq, ?_⟩
    have hm := Nat.div_add_mod m k
    have hn := Nat.div_add_mod n k
    rw [hq] at hm
    omega

/-- A smaller character has the smaller bytes, whatever follows either of them. -/
theorem encode_append_lt {c d : Char} (h : c < d) (s t : List UInt8) :
    String.utf8EncodeChar c ++ s < String.utf8EncodeChar d ++ t := by
  have hc : c.val.toNat < d.val.toNat := h
  have hd : d.val.toNat < 1114112 := by
    rcases d.valid with hv | hv
    · exact Nat.lt_trans hv (by decide)
    · exact hv.2
  unfold String.utf8EncodeChar
  generalize c.val.toNat = m at *
  generalize d.val.toNat = n at *
  have h₁ := div_lt_or_mod_lt 64 hc
  have h₂ : m / 64 ≤ n / 64 := Nat.div_le_div_right (Nat.le_of_lt hc)
  have h₃ : m / 4096 ≤ n / 4096 := Nat.div_le_div_right (Nat.le_of_lt hc)
  dsimp only
  split_ifs <;> simp only [List.cons_append, List.nil_append, List.cons_lt_cons_iff,
    UInt8.lt_iff_toNat_lt, ← UInt8.toNat_inj, UInt8.toNat_ofNat']
  all_goals try omega
  -- Two characters of four bytes each: the digits to the base 64 decide, the highest first.
  rcases h₁ with h₁ | ⟨e₁, h₁⟩
  · rcases div_lt_or_mod_lt 64 h₁ with h₄ | ⟨e₄, h₄⟩
    · rcases div_lt_or_mod_lt 64 h₄ with h₅ | ⟨e₅, h₅⟩ <;>
      · simp only [Nat.div_div_eq_div_mul, Nat.reduceMul] at *
        omega
    · simp only [Nat.div_div_eq_div_mul, Nat.reduceMul] at *
      omega
  · omega

theorem flatMap_encode_lt {s t : List Char} (h : s < t) :
    s.flatMap String.utf8EncodeChar < t.flatMap String.utf8EncodeChar := by
  induction s generalizing t with
  | nil =>
    cases t with
    | nil => exact absurd h (List.lt_irrefl _)
    | cons d t =>
      rw [List.flatMap_nil, List.flatMap_cons]
      have hd := String.utf8EncodeChar_ne_nil (c := d)
      cases he : String.utf8EncodeChar d with
      | nil => exact absurd he hd
      | cons b bs => exact List.nil_lt_cons ..
  | cons c s ih =>
    cases t with
    | nil => exact absurd h (List.not_lt_nil _)
    | cons d t =>
      rw [List.flatMap_cons, List.flatMap_cons]
      rcases List.cons_lt_cons_iff.1 h with hcd | ⟨rfl, hst⟩
      · exact encode_append_lt hcd _ _
      · exact List.append_left_lt (ih hst)

/-- Texts stand in the order of their bytes. -/
theorem bytes_lt_bytes_iff {s t : String} : bytes s < bytes t ↔ s < t := by
  rw [bytes_eq_flatMap, bytes_eq_flatMap]
  refine ⟨fun h => ?_, flatMap_encode_lt⟩
  rcases Std.lt_trichotomy s t with hst | rfl | hts
  · exact hst
  · exact absurd h (List.lt_irrefl _)
  · exact absurd h (List.lt_asymm (flatMap_encode_lt hts))

end Mediatheque
