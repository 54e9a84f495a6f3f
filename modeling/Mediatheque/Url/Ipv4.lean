import Mediatheque.Text.Digits
import Mediatheque.Text.Fields

/-!
# Internet addresses of four bytes

An address is written as up to four numbers with points between them, each of them
decimal, octal after a zero, or hexadecimal after `0x`. The last number stands for all
the bytes that the others leave.

* `Ipv4.endsInNumber`: whether a host is to be read as such an address;
* `Ipv4.read?`, `Ipv4.text`: the address.
-/

namespace Mediatheque

namespace Ipv4

def octalDigit? (c : Char) : Option Nat :=
  match decimalDigit? c with
  | some d => if d < 8 then some d else none
  | none => none

/-- The number that a part writes. -/
def part? (part : List Char) : Option Nat :=
  match part with
  | [] => none
  | '0' :: 'x' :: rest | '0' :: 'X' :: rest => (digitValues? hexDigit? rest).map (numberOf 16)
  | '0' :: c :: rest => (digitValues? octalDigit? (c :: rest)).map (numberOf 8)
  | part => (digitValues? decimalDigit? part).map (numberOf 10)

/-- The parts of a host between points, without an empty one at its end. -/
def parts (host : List Char) : List (List Char) :=
  let all := splitAt (· = '.') host
  if 2 ≤ all.length ∧ all.getLast? = some [] then all.dropLast else all

/-- Whether the last part of a host is a number. -/
def endsInNumber (host : List Char) : Bool :=
  match (parts host).getLast? with
  | some [] | none => false
  | some last => last.all isDigit || (part? last).isSome

/-- The address that a host writes, as a number below 2^32. -/
def read? (host : List Char) : Option Nat := do
  let numbers ← (parts host).mapM part?
  let last ← numbers.getLast?
  let bytes := numbers.dropLast
  if bytes.length ≤ 3 ∧ bytes.all (· < 256) ∧ last < Nat.pow 256 (4 - bytes.length) then
    some (numberOf 256 bytes * Nat.pow 256 (4 - bytes.length) + last)
  else none

/-- An address as four decimal numbers. -/
def text (address : Nat) : List Char :=
  joinWith ['.'] ([3, 2, 1, 0].map fun i => natText (address / Nat.pow 256 i % 256))

end Ipv4

end Mediatheque
