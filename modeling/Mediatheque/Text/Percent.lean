import Mediatheque.Text.Digits

/-!
# Percent-encoding

Text inside a URI. A byte that may not stand there is written as a percent sign and
two hexadecimal digits.

* `Percent.encode`: the written form of the path of a file.
-/

namespace Mediatheque

namespace Percent

/-- The characters of a path that are encoded: control characters, all beyond ASCII,
and those that a URI gives a meaning to. Slashes stay, so that paths keep their parts. -/
def isReserved (c : Char) : Bool :=
  c.toNat < 0x20 ∨ 0x7f ≤ c.toNat ∨ c ∈ [' ', '"', '#', '%', '<', '>', '?', '[', ']', '\x60',
    '\x7b', '\x7d']

/-- A byte as a percent sign and two digits. -/
def encodeByte (b : UInt8) : List Char :=
  ['%', (hexDigitOf (b.toNat / 16)).toUpper, (hexDigitOf (b.toNat % 16)).toUpper]

def encodeChar (c : Char) : List Char :=
  if isReserved c then (String.utf8EncodeChar c).flatMap encodeByte else [c]

/-- The written form of the path of a file. -/
def encode (path : List Char) : List Char := path.flatMap encodeChar

end Percent

end Mediatheque
