import Mediatheque.Url.Ipv6
import Mediatheque.Url.Punycode

/-!
# Hosts

The host of an address: a name, or a number that addresses a machine on the network.
In the addresses of the web protocols a host is decoded and folded, and what looks
like a number has to be one; elsewhere it is kept as it is.

* `Host.read?`, `Host.readOpaque?`;
* `Host.text`: the one spelling of a host.
-/

namespace Mediatheque

/-- A host. -/
inductive Host where
  | name (name : List Char)
  | ipv4 (address : Nat)
  | ipv6 (pieces : List Nat)
deriving DecidableEq, Inhabited

namespace Host

/-- The one spelling of a host. -/
def text : Host → String
  | name cs => String.ofList cs
  | ipv4 address => String.ofList (Ipv4.text address)
  | ipv6 pieces => String.ofList ('[' :: (Ipv6.text pieces ++ [']']))

/-! ## Names -/

/-- The bytes that a text stands for: its own, and those written by a percent sign and
two digits. -/
def percentDecode : List Char → List UInt8
  | [] => []
  | '%' :: a :: b :: rest =>
    match hexDigit? a, hexDigit? b with
    | some x, some y => .ofNat (16 * x + y) :: percentDecode rest
    | _, _ => 0x25 :: percentDecode (a :: b :: rest)
  | c :: rest => String.utf8EncodeChar c ++ percentDecode rest

/-- The small letter of a capital one in the Latin, Greek and Cyrillic alphabets, and the
common form of a wide character. -/
def fold (c : Char) : List Char :=
  let n := c.toNat
  let shifted (distance : Nat) : List Char := [Char.ofNat (n + distance)]
  if n = 0xad ∨ n = 0x200b ∨ n = 0x2060 ∨ n = 0xfeff then []
  else if n = 0x3002 ∨ n = 0xff0e ∨ n = 0xff61 then ['.']
  else if 0xff01 ≤ n ∧ n ≤ 0xff5e then [(Char.ofNat (n - 0xfee0)).toLower]
  else if (0xc0 ≤ n ∧ n ≤ 0xde ∧ n ≠ 0xd7) ∨ (0x391 ≤ n ∧ n ≤ 0x3ab) ∨ (0x410 ≤ n ∧ n ≤ 0x42f) then
    shifted 32
  else if 0x400 ≤ n ∧ n ≤ 0x40f then shifted 80
  else if (0x100 ≤ n ∧ n ≤ 0x12f ∨ 0x14a ≤ n ∧ n ≤ 0x177) ∧ n % 2 = 0 then shifted 1
  else if (0x139 ≤ n ∧ n ≤ 0x148 ∨ 0x179 ≤ n ∧ n ≤ 0x17e) ∧ n % 2 = 1 then shifted 1
  else [c.toLower]

/-- The mark of a label that stands for one with characters beyond ASCII. -/
def punycodeMark : List Char := ['x', 'n', '-', '-']

/-- A folded label in ASCII. -/
def asciiLabel? (label : List Char) : Option (List Char) :=
  if label.all (·.toNat < 0x80) then
    if label.take 4 = punycodeMark then do
      let decoded ← Punycode.decode? (label.drop 4)
      if decoded.any (0x80 ≤ ·.toNat) ∧ decoded.flatMap fold = decoded ∧
          Punycode.encode decoded = label.drop 4 then
        some label
      else none
    else some label
  else some (punycodeMark ++ Punycode.encode label)

/-- The characters that no name of a machine has. -/
def isForbidden (c : Char) : Bool :=
  c.toNat ≤ 0x20 ∨ c.toNat = 0x7f ∨
    c ∈ ['#', '%', '/', ':', '<', '>', '?', '@', '[', '\\', ']', '^', '|']

/-- The name of a machine: decoded, in small letters and in ASCII. -/
def domain? (cs : List Char) : Option (List Char) := do
  let decoded ← String.fromUTF8? ⟨(percentDecode cs).toArray⟩
  let labels ← (splitAt (· = '.') (decoded.toList.flatMap fold)).mapM asciiLabel?
  let name := joinWith ['.'] labels
  if name.isEmpty ∨ name.any isForbidden then none else some name

/-! ## Hosts of addresses -/

/-- The address between square brackets. -/
def bracketed? (cs : List Char) : Option Host :=
  if cs.getLast? = some ']' then (Ipv6.read? cs.dropLast).map ipv6 else none

/-- The host that a text stands for in the addresses of the web protocols. -/
def read? (cs : List Char) : Option Host :=
  match cs with
  | '[' :: rest => bracketed? rest
  | cs => do
    let name ← domain? cs
    if Ipv4.endsInNumber name then (Ipv4.read? name).map ipv4 else some (.name name)

/-- The characters that the host of another address does not have. -/
def isForbiddenOpaque (c : Char) : Bool :=
  c ∈ ['\x00', '\t', '\n', '\r', ' ', '#', '/', ':', '<', '>', '?', '@', '[', '\\', ']', '^', '|']

/-- A character of a host that is kept as it is, encoded where it is not plain text. -/
def opaqueChar (c : Char) : List Char :=
  if c.toNat < 0x20 ∨ 0x7f ≤ c.toNat then
    (String.utf8EncodeChar c).flatMap fun b =>
      ['%', (hexDigitOf (b.toNat / 16)).toUpper, (hexDigitOf (b.toNat % 16)).toUpper]
  else [c]

/-- The host that a text stands for in other addresses; it may be empty. -/
def readOpaque? (cs : List Char) : Option Host :=
  match cs with
  | '[' :: rest => bracketed? rest
  | cs => if cs.any isForbiddenOpaque then none else some (.name (cs.flatMap opaqueChar))

end Host

end Mediatheque
