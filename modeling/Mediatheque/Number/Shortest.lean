import Mediatheque.Number.Binary64

/-!
# Shortest decimals

The decimal text of a binary64 number has the fewest significant digits that
still lie nearer to it than to any other number, and of those digits the ones
nearest to its exact value. Two layouts spread the digits: one keeps a bounded
positional range and uses an exponent outside it, the other is positional
throughout.

* `Binary64.shortest`: the digits and the power of ten of the last of them;
* `Binary64.scientificText`: positional from `1e-5` to below `1e16`;
* `Binary64.positionalText`: positional at every magnitude.
-/

namespace Mediatheque

namespace Binary64

/-- An unsigned decimal fraction `digits · 10 ^ exponent`. -/
structure Decimal where
  digits : Nat
  exponent : Int
deriving DecidableEq

/-- Drops trailing zeros from the digits, at most `fuel` of them. -/
def Decimal.trim : Nat → Decimal → Decimal
  | 0, d => d
  | fuel + 1, d =>
    if d.digits ≠ 0 ∧ d.digits % 10 = 0 then Decimal.trim fuel ⟨d.digits / 10, d.exponent + 1⟩
    else d

/-- The reals that round to a finite positive number, over the denominator
`2 ^ 1076`: the lower end, the number itself and the upper end. The lower end is
nearer where the number below has a smaller unit. -/
def interval (x : Binary64) : Nat × Nat × Nat :=
  let unit := twoTo x.scale
  let value := 4 * x.significand * unit
  let below := if x.fraction = 0 ∧ 1 < x.exponentField then unit else 2 * unit
  (value - below, value, value + 2 * unit)

/-- The multiples of `10 ^ power` on either side of `value / 2 ^ 1076`, the
nearer one first. -/
def gridNeighbours (value : Nat) (power : Int) : List Decimal :=
  let num := if 0 ≤ power then value else value * tenTo (-power).toNat
  let den := if 0 ≤ power then twoTo 1076 * tenTo power.toNat else twoTo 1076
  let q := num / den
  let r := num % den
  if 2 * r < den ∨ (2 * r = den ∧ q % 2 = 0) then [⟨q, power⟩, ⟨q + 1, power⟩]
  else [⟨q + 1, power⟩, ⟨q, power⟩]

/-- Whether a decimal fraction lies in an interval over `2 ^ 1076`, of which the
ends belong to it when `closed`. -/
def Decimal.liesIn (d : Decimal) (low high : Nat) (closed : Bool) : Bool :=
  let num := if 0 ≤ d.exponent then d.digits * tenTo d.exponent.toNat * twoTo 1076
    else d.digits * twoTo 1076
  let scale := if 0 ≤ d.exponent then 1 else tenTo (-d.exponent).toNat
  if closed then low * scale ≤ num ∧ num ≤ high * scale
  else low * scale < num ∧ num < high * scale

/-- The least `k` with `value / 2 ^ 1076 < 10 ^ k`, searched upwards. -/
def decimalWidth (value : Nat) : Nat → Int → Int
  | 0, k => k
  | fuel + 1, k =>
    let reached : Bool := if 0 ≤ k then value < twoTo 1076 * tenTo k.toNat
      else value * tenTo (-k).toNat < twoTo 1076
    if reached then k else decimalWidth value fuel (k + 1)

/-- A width from which the search may start: the logarithm of two lies between
0.3 and 0.31, and the guess errs on the small side. -/
def widthGuess (value : Nat) : Int :=
  let e : Int := (value.log2 : Int) - 1076
  if 0 ≤ e then e * 3 / 10 - 1 else e * 31 / 100 - 2

/-- The fewest digits, from `count` of them on, at which one of the two
neighbours on the decimal grid lies in the interval. -/
def shortestFrom (x : Binary64) (width : Int) : Nat → Nat → Decimal
  | 0, count => (gridNeighbours x.interval.2.1 (width - count)).headD ⟨0, 0⟩
  | fuel + 1, count =>
    let (low, value, high) := x.interval
    let closed := x.significand % 2 = 0
    match (gridNeighbours value (width - count)).find? (·.liesIn low high closed) with
    | some d => d
    | none => shortestFrom x width fuel (count + 1)

/-- The shortest decimal fraction that rounds to a finite positive number, and of
those the nearest to it. -/
def shortest (x : Binary64) : Decimal :=
  let value := x.interval.2.1
  let width := decimalWidth value 400 (widthGuess value)
  (shortestFrom x width 17 1).trim 400

/-! ## Layouts -/

/-- The decimal digits of a number that is not zero, without a sign. -/
def digitText (n : Nat) : List Char := (Nat.toDigits 10 n)

def zeros (n : Nat) : List Char := List.replicate n '0'

/-- Writes the digits `0.d₁d₂… · 10 ^ point` with a decimal point and at least
one digit on either side of it. -/
def positional (digits : List Char) (point : Int) : List Char :=
  if point ≤ 0 then '0' :: '.' :: (zeros (-point).toNat ++ digits)
  else if (digits.length : Int) ≤ point then
    digits ++ zeros (point.toNat - digits.length) ++ ['.', '0']
  else digits.take point.toNat ++ '.' :: digits.drop point.toNat

/-- Writes the digits `0.d₁d₂… · 10 ^ point` as one digit, the others behind a
point, and a signed exponent. -/
def exponential (digits : List Char) (point : Int) : List Char :=
  let exponent := point - 1
  let mark := if exponent < 0 then ['e', '-'] else ['e', '+']
  let body := match digits with
    | [] => []
    | [d] => [d]
    | d :: rest => d :: '.' :: rest
  body ++ mark ++ digitText exponent.natAbs

/-- A sign, then the layout of the shortest digits; zero has its own text. -/
def textWith (layout : List Char → Int → List Char) (x : Binary64) : String :=
  let sign := if x.isNegative then ['-'] else []
  if x.isZero then String.ofList (sign ++ ['0', '.', '0'])
  else
    let d := x.shortest
    let digits := digitText d.digits
    String.ofList (sign ++ layout digits (d.exponent + digits.length))

/-- The text of a finite number: positional from `1e-5` to below `1e16`, with an
exponent elsewhere, and always with a point or an exponent. -/
def scientificText (x : Binary64) : String :=
  textWith (fun digits point =>
    if -5 < point ∧ point ≤ 16 then positional digits point else exponential digits point) x

/-- The text of a finite number without an exponent. -/
def positionalText (x : Binary64) : String := textWith positional x

end Binary64

end Mediatheque
