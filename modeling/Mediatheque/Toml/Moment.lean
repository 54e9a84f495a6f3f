import Mediatheque.Text.Affix
import Mediatheque.Text.Digits

/-!
# Dates and times

A date, a time of day or both, the latter with the distance from universal time if one
is given. A moment has several spellings, of which one is written: `T` stands between
the date and the time, `Z` for universal time, and fractions of a second have at most
nine digits and no zero at the end.

* `Toml.readMoment`: the spelling that is written, and the text behind the moment.
-/

namespace Mediatheque

namespace Toml

/-- The text behind a character. -/
def expect (c : Char) (s : List Char) : Option (List Char) := dropPrefix? [c] s

/-- Digits of a fixed count, with the number that they write. -/
def readFixed (count : Nat) (s : List Char) : Option (Nat × List Char × List Char) := do
  if s.length < count then none
  let values ← digitValues? decimalDigit? (s.take count)
  some (numberOf 10 values, s.take count, s.drop count)

/-- The days of a month. -/
def daysOf (year month : Nat) : Nat :=
  if month = 2 then
    if year % 4 = 0 ∧ (year % 100 ≠ 0 ∨ year % 400 = 0) then 29 else 28
  else if month ∈ [4, 6, 9, 11] then 30 else 31

def readDate (s : List Char) : Option (List Char × List Char) := do
  let (year, yearText, s) ← readFixed 4 s
  let s ← expect '-' s
  let (month, monthText, s) ← readFixed 2 s
  let s ← expect '-' s
  let (day, dayText, s) ← readFixed 2 s
  if 1 ≤ month ∧ month ≤ 12 ∧ 1 ≤ day ∧ day ≤ daysOf year month then
    some (yearText ++ '-' :: monthText ++ '-' :: dayText, s)
  else none

/-- The fraction of a second, if there is one: nine of its digits, and those without the
zeros at the end. -/
def readSecondFraction (s : List Char) : List Char × List Char :=
  match s with
  | '.' :: r =>
    match r.takeWhile isDigit with
    | [] => ([], s)
    | digits =>
      match dropTrailing (· = '0') (digits.take 9) with
      | [] => ([], r.drop digits.length)
      | kept => ('.' :: kept, r.drop digits.length)
  | s => ([], s)

def readTime (s : List Char) : Option (List Char × List Char) := do
  let (hour, hourText, s) ← readFixed 2 s
  let s ← expect ':' s
  let (minute, minuteText, s) ← readFixed 2 s
  let s ← expect ':' s
  let (second, secondText, s) ← readFixed 2 s
  if hour ≤ 23 ∧ minute ≤ 59 ∧ second ≤ 60 then
    let (fraction, s) := readSecondFraction s
    some (hourText ++ ':' :: minuteText ++ ':' :: secondText ++ fraction, s)
  else none

/-- A distance from universal time, behind its sign. None is to the east. -/
def readDistance (sign : Char) (s : List Char) : Option (List Char × List Char) := do
  let (hour, hourText, s) ← readFixed 2 s
  let s ← expect ':' s
  let (minute, minuteText, s) ← readFixed 2 s
  if hour ≤ 23 ∧ minute ≤ 59 then
    let sign := if hour = 0 ∧ minute = 0 then '+' else sign
    some (sign :: hourText ++ ':' :: minuteText, s)
  else none

/-- A distance from universal time, if there is one. -/
def readOffset (s : List Char) : List Char × List Char :=
  match s with
  | 'Z' :: r | 'z' :: r => (['Z'], r)
  | '+' :: r => (readDistance '+' r).getD ([], s)
  | '-' :: r => (readDistance '-' r).getD ([], s)
  | s => ([], s)

/-- A time of day behind a date, if there is one. -/
def readTimeBehind (s : List Char) : List Char × List Char :=
  let time := match s with
    | 'T' :: r | 't' :: r | ' ' :: r => readTime r
    | _ => none
  match time with
  | some (text, r) =>
    let (offset, r) := readOffset r
    ('T' :: text ++ offset, r)
  | none => ([], s)

/-- A date, a time of day, or both. -/
def readMoment (s : List Char) : Option (List Char × List Char) :=
  match readDate s with
  | some (date, s) =>
    let (time, s) := readTimeBehind s
    some (date ++ time, s)
  | none => readTime s

end Toml

end Mediatheque
