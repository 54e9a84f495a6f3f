import Mediatheque.Proofs.Text.ByteOrder
import Mediatheque.Text.Percent

/-!
# Reading percent-encoded text

Percent-encoding is undone byte by byte: a percent sign with two hexadecimal digits behind it stands
for a byte, and every other byte for itself; what they stand for is then read as UTF-8
(`Percent.decode`). So the path of a file is read back from its written form, whatever characters
it has (`decode_encode`).
-/

namespace Mediatheque

namespace Percent

/-! ## Decoding -/

/-- The byte that three bytes stand for, if they are a percent sign and two hexadecimal digits. -/
def byteOf? (sign high low : UInt8) : Option UInt8 := do
  if sign ≠ '%'.toUInt8 then none
  let h ← hexDigit? (Char.ofUInt8 high)
  let l ← hexDigit? (Char.ofUInt8 low)
  some (.ofNat (16 * h + l))

/-- What percent-encoded bytes stand for. A percent sign without two digits behind it stands for
itself. -/
def decodeBytes : List UInt8 → List UInt8
  | b :: high :: low :: rest =>
    match byteOf? b high low with
    | some byte => byte :: decodeBytes rest
    | none => b :: decodeBytes (high :: low :: rest)
  | b :: rest => b :: decodeBytes rest
  | [] => []

/-- The text that percent-encoded text stands for, if it is one. -/
def decode (text : String) : Option String :=
  String.fromUTF8? ⟨(decodeBytes (bytes text)).toArray⟩

theorem decodeBytes_cons_of_ne {b : UInt8} (h : b ≠ '%'.toUInt8) (rest : List UInt8) :
    decodeBytes (b :: rest) = b :: decodeBytes rest := by
  match rest with
  | [] => rfl
  | [_] => rfl
  | high :: low :: rest => rw [decodeBytes, byteOf?, if_pos h]; rfl

/-! ## What is read of a written character -/

/-- An ASCII character is a single byte. -/
theorem utf8EncodeChar_of_lt {c : Char} (h : c.toNat < 0x80) :
    String.utf8EncodeChar c = [c.toUInt8] := by
  refine String.utf8EncodeChar_eq_singleton (Char.utf8Size_eq_one_iff.2 ?_)
  exact UInt32.le_iff_toNat_le.2 (Nat.le_of_lt_succ h)

/-- The written digits of a byte. -/
def digit (n : Nat) : Char := (hexDigitOf n).toUpper

theorem toNat_digit_lt : ∀ n < 16, (digit n).toNat < 0x80 := by decide

theorem hexDigit?_digit : ∀ n < 16, hexDigit? (Char.ofUInt8 (digit n).toUInt8) = some n := by
  decide

theorem byteOf?_digits (b : UInt8) :
    byteOf? '%'.toUInt8 (digit (b.toNat / 16)).toUInt8 (digit (b.toNat % 16)).toUInt8 = some b := by
  have hb : b.toNat < 256 := b.toNat_lt
  have hbyte : 16 * (b.toNat / 16) + b.toNat % 16 = b.toNat := Nat.div_add_mod ..
  rw [byteOf?, if_neg (not_not_intro rfl), hexDigit?_digit _ (by omega),
    hexDigit?_digit _ (by omega)]
  show some (UInt8.ofNat (16 * (b.toNat / 16) + b.toNat % 16)) = some b
  rw [hbyte, UInt8.ofNat_toNat]

/-- A byte is read back from its percent sign and its digits. -/
theorem decodeBytes_encodeByte (b : UInt8) (rest : List UInt8) :
    decodeBytes ((encodeByte b).flatMap String.utf8EncodeChar ++ rest) = b :: decodeBytes rest := by
  have hb : b.toNat < 256 := b.toNat_lt
  have hhigh := utf8EncodeChar_of_lt (toNat_digit_lt (b.toNat / 16) (by omega))
  have hlow := utf8EncodeChar_of_lt (toNat_digit_lt (b.toNat % 16) (by omega))
  have hbytes : (encodeByte b).flatMap String.utf8EncodeChar = ['%'.toUInt8,
      (digit (b.toNat / 16)).toUInt8, (digit (b.toNat % 16)).toUInt8] := by
    have hchars : encodeByte b = ['%', digit (b.toNat / 16), digit (b.toNat % 16)] := rfl
    rw [hchars, List.flatMap_cons, List.flatMap_cons, List.flatMap_singleton, hhigh, hlow]
    rfl
  rw [hbytes, List.cons_append, List.cons_append, List.cons_append, List.nil_append, decodeBytes,
    byteOf?_digits]

theorem decodeBytes_flatMap_encodeByte (bs rest : List UInt8) :
    decodeBytes ((bs.flatMap encodeByte).flatMap String.utf8EncodeChar ++ rest) =
      bs ++ decodeBytes rest := by
  induction bs with
  | nil => rfl
  | cons b bs ih =>
    rw [List.flatMap_cons, List.flatMap_append, List.append_assoc, decodeBytes_encodeByte, ih,
      List.cons_append]

/-- A character that is not encoded is an ASCII character, and no percent sign. -/
theorem byte_of_not_isReserved {c : Char} (h : isReserved c = false) :
    String.utf8EncodeChar c = [c.toUInt8] ∧ c.toUInt8 ≠ '%'.toUInt8 := by
  obtain ⟨-, hlow, hspecial⟩ : ¬ c.toNat < 0x20 ∧ ¬ 0x7f ≤ c.toNat ∧ c ∉ _ :=
    (not_or.1 (of_decide_eq_false h)).imp_right not_or.1
  refine ⟨utf8EncodeChar_of_lt (by omega), fun hsame => hspecial ?_⟩
  have hnat : c.toNat % 256 = 0x25 := congrArg UInt8.toNat hsame
  rw [Nat.mod_eq_of_lt (by omega)] at hnat
  have hc : c = '%' := Char.toNat_inj.1 hnat
  rw [hc]
  decide

/-- A character is read back from its written form. -/
theorem decodeBytes_encodeChar (c : Char) (rest : List UInt8) :
    decodeBytes ((encodeChar c).flatMap String.utf8EncodeChar ++ rest) =
      String.utf8EncodeChar c ++ decodeBytes rest := by
  rw [encodeChar]
  cases h : isReserved c with
  | true =>
    rw [if_pos rfl]
    exact decodeBytes_flatMap_encodeByte _ rest
  | false =>
    obtain ⟨hbyte, hne⟩ := byte_of_not_isReserved h
    rw [if_neg Bool.false_ne_true, List.flatMap_singleton, hbyte, List.singleton_append,
      decodeBytes_cons_of_ne hne, List.singleton_append]

/-! ## Paths -/

theorem decodeBytes_encode (path : List Char) :
    decodeBytes ((encode path).flatMap String.utf8EncodeChar) =
      path.flatMap String.utf8EncodeChar := by
  induction path with
  | nil => rfl
  | cons c path ih =>
    rw [encode, List.flatMap_cons, ← encode, List.flatMap_append, decodeBytes_encodeChar, ih,
      List.flatMap_cons]

theorem fromUTF8?_bytes (text : String) : String.fromUTF8? ⟨(bytes text).toArray⟩ = some text := by
  have hbytes : (⟨(bytes text).toArray⟩ : ByteArray) = text.toByteArray := rfl
  rw [hbytes, String.fromUTF8?, dif_pos text.isValidUTF8]
  rfl

/-- A path is read back from its written form. -/
theorem decode_encode (path : String) :
    decode (String.ofList (encode path.toList)) = some path := by
  rw [decode, bytes_eq_flatMap, String.toList_ofList, decodeBytes_encode, ← bytes_eq_flatMap,
    fromUTF8?_bytes]

/-- Text of which no character is encoded is its own written form. -/
theorem encode_eq_self {path : List Char} (h : ∀ c ∈ path, isReserved c = false) :
    encode path = path := by
  induction path with
  | nil => rfl
  | cons c path ih =>
    obtain ⟨hc, hpath⟩ := List.forall_mem_cons.1 h
    rw [encode, List.flatMap_cons, ← encode, ih hpath, encodeChar, hc]
    rfl

theorem encode_append (start rest : List Char) :
    encode (start ++ rest) = encode start ++ encode rest :=
  List.flatMap_append

end Percent

end Mediatheque
