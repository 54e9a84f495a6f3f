/-!
# Digits

Digits of numbers in text, as they occur in escapes, addresses, checksums and
decimal numbers. Only the ASCII digits count.

* `decimalDigit?`, `hexDigit?`: the value of one digit;
* `numberOf`: the number that digit values write in a base;
* `intText`: the decimal text of an integer.
-/

namespace Mediatheque

/-- The value of a decimal digit. -/
def decimalDigit? (c : Char) : Option Nat :=
  if '0' ≤ c ∧ c ≤ '9' then some (c.toNat - '0'.toNat) else none

/-- The value of a hexadecimal digit, in either case. -/
def hexDigit? (c : Char) : Option Nat :=
  if '0' ≤ c ∧ c ≤ '9' then some (c.toNat - '0'.toNat)
  else if 'a' ≤ c ∧ c ≤ 'f' then some (c.toNat - 'a'.toNat + 10)
  else if 'A' ≤ c ∧ c ≤ 'F' then some (c.toNat - 'A'.toNat + 10)
  else none

/-- Whether a character is a decimal digit. -/
def isDigit (c : Char) : Bool := (decimalDigit? c).isSome

/-- The digit with a value below sixteen, in lower case. -/
def hexDigitOf (n : Nat) : Char :=
  if n < 10 then Char.ofNat ('0'.toNat + n) else Char.ofNat ('a'.toNat + (n - 10))

/-- The two hexadecimal digits of a byte, in lower case. -/
def hexByte (b : UInt8) : List Char := [hexDigitOf (b.toNat / 16), hexDigitOf (b.toNat % 16)]

/-- The values of a run of digits, or nothing if a character is no digit. -/
def digitValues? (digit? : Char → Option Nat) (cs : List Char) : Option (List Nat) :=
  cs.mapM digit?

/-- The number that digit values write in a base, the most significant first. -/
def numberOf (base : Nat) (digits : List Nat) : Nat :=
  digits.foldl (fun n d => n * base + d) 0

/-- The decimal digits of a natural number. -/
def natText (n : Nat) : List Char := Nat.toDigits 10 n

/-- The decimal digits of an integer, behind a minus sign if it is negative. -/
def intText (i : Int) : List Char :=
  if i < 0 then '-' :: natText i.natAbs else natText i.toNat

end Mediatheque
