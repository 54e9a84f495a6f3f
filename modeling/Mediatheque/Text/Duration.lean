import Mediatheque.Text.Digits

/-!
# Durations in messages

A duration in messages for people has the largest unit of which it holds at least
one, and a decimal fraction without trailing zeros.
-/

namespace Mediatheque

/-- The digits of the thousandths of a unit behind a point, without trailing zeros. -/
def thousandths (n : Nat) : List Char :=
  if n = 0 then []
  else if n % 100 = 0 then '.' :: natText (n / 100)
  else if n % 10 = 0 then '.' :: hexDigitOf (n / 100) :: natText (n / 10 % 10)
  else ['.', hexDigitOf (n / 100), hexDigitOf (n / 10 % 10), hexDigitOf (n % 10)]

/-- The text of a number of milliseconds. -/
def durationText (milliseconds : Nat) : String :=
  if milliseconds = 0 then "0ns"
  else if milliseconds < 1000 then String.ofList (natText milliseconds ++ ['m', 's'])
  else
    String.ofList (natText (milliseconds / 1000) ++ thousandths (milliseconds % 1000) ++ ['s'])

end Mediatheque
