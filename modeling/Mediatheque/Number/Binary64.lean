/-!
# Binary64 numbers

Double-precision floating-point numbers as their bit patterns. A finite number
is `± m · 2 ^ q` with a natural number `m`; every operation here computes that
product exactly and rounds once, to the nearest number and on a tie to the
even one. The settings and the messages of the library only read such numbers,
keep them and write them again.

* `Binary64.ofRatio`: the number nearest to a quotient of natural numbers;
* `Binary64.mul`, `Binary64.div`: the rounded product and quotient;
* `Binary64.ofScientific`: the number nearest to a decimal fraction.
-/

namespace Mediatheque

/-- A power of two. -/
abbrev twoTo (n : Nat) : Nat := Nat.pow 2 n

/-- A power of ten. -/
abbrev tenTo (n : Nat) : Nat := Nat.pow 10 n

/-- A double-precision floating-point number, by its 64 bits. -/
structure Binary64 where
  bits : UInt64
deriving DecidableEq, Inhabited

namespace Binary64

/-! ## Parts of a number -/

/-- Whether the sign bit is set. -/
def isNegative (x : Binary64) : Bool := twoTo 63 ≤ x.bits.toNat

/-- The eleven exponent bits. -/
def exponentField (x : Binary64) : Nat := x.bits.toNat / twoTo 52 % twoTo 11

/-- The fifty-two bits after the exponent. -/
def fraction (x : Binary64) : Nat := x.bits.toNat % twoTo 52

def isFinite (x : Binary64) : Bool := x.exponentField ≠ 2047

def isNaN (x : Binary64) : Bool := x.exponentField = 2047 ∧ x.fraction ≠ 0

def isInfinite (x : Binary64) : Bool := x.exponentField = 2047 ∧ x.fraction = 0

def isZero (x : Binary64) : Bool := x.exponentField = 0 ∧ x.fraction = 0

/-- The `m` of the magnitude `m · 2 ^ q` of a finite number. -/
def significand (x : Binary64) : Nat :=
  if x.exponentField = 0 then x.fraction else twoTo 52 + x.fraction

/-- The `q` of the magnitude `m · 2 ^ q` of a finite number, plus 1074. -/
def scale (x : Binary64) : Nat := x.exponentField - 1

/-- The numerator of the magnitude over the denominator `2 ^ 1074`. -/
def numerator (x : Binary64) : Nat := x.significand * twoTo x.scale

/-! ## Construction -/

/-- The number with a sign bit and the other 63 bits. -/
def ofMagnitude (negative : Bool) (magnitude : Nat) : Binary64 :=
  ⟨UInt64.ofNat (if negative then twoTo 63 + magnitude else magnitude)⟩

def zero (negative : Bool) : Binary64 := ofMagnitude negative 0

def infinity (negative : Bool) : Binary64 := ofMagnitude negative (2047 * twoTo 52)

/-- The quiet NaN with no payload. -/
def nan (negative : Bool) : Binary64 := ofMagnitude negative (2047 * twoTo 52 + twoTo 51)

/-- Flips the sign bit. -/
def neg (x : Binary64) : Binary64 := ofMagnitude (!x.isNegative) (x.bits.toNat % twoTo 63)

/-- The quotient rounded to the nearest natural number, a tie to the even one. -/
def roundDiv (num den : Nat) : Nat :=
  let q := num / den
  let r := num % den
  if 2 * r < den then q
  else if den < 2 * r then q + 1
  else if q % 2 = 0 then q else q + 1

/-- The number nearest to `num / den`, for a positive `den`. The quotient lies in
`[2 ^ e, 2 ^ (e + 1))`, so that its unit in the last place is
`2 ^ max (e - 52) (-1074)`. -/
def ofRatio (negative : Bool) (num den : Nat) : Binary64 :=
  if num = 0 then zero negative
  else
    let guess : Int := (num.log2 : Int) - den.log2
    let reaches : Bool :=
      if 0 ≤ guess then den * twoTo guess.toNat ≤ num else den ≤ num * twoTo (-guess).toNat
    let e : Int := if reaches then guess else guess - 1
    let unit : Int := max (e - 52) (-1074)
    let m := if 0 ≤ unit then roundDiv num (den * twoTo unit.toNat)
      else roundDiv (num * twoTo (-unit).toNat) den
    let magnitude := (unit + 1074).toNat * twoTo 52 + m
    if 2047 * twoTo 52 ≤ magnitude then infinity negative else ofMagnitude negative magnitude

def ofNat (n : Nat) : Binary64 := ofRatio false n 1

/-- The number nearest to `± mantissa · 10 ^ exponent`. Between `2 ^ 3` and
`2 ^ 4` to every power of ten, an exponent out of reach of the finite numbers is
recognised before the power is computed. -/
def ofScientific (negative : Bool) (mantissa : Nat) (exponent : Int) : Binary64 :=
  let width : Int := mantissa.log2
  if mantissa = 0 then zero negative
  else if 0 ≤ exponent then
    if 1100 < width + 3 * exponent then infinity negative
    else ofRatio negative (mantissa * tenTo exponent.toNat) 1
  else
    if 1100 < width + 4 * exponent then infinity negative
    else if width + 3 * exponent < -1100 then zero negative
    else ofRatio negative mantissa (tenTo (-exponent).toNat)

/-! ## Arithmetic on finite numbers -/

/-- The rounded product of two finite numbers. -/
def mul (x y : Binary64) : Binary64 :=
  ofRatio (x.isNegative != y.isNegative) (x.numerator * y.numerator) (twoTo 2148)

/-- The rounded quotient of two finite numbers, of which the second is not zero. -/
def div (x y : Binary64) : Binary64 :=
  ofRatio (x.isNegative != y.isNegative) x.numerator y.numerator

/-- Numeric equality: the two zeros are equal, and a NaN equals nothing. -/
def numEq (x y : Binary64) : Bool :=
  !x.isNaN && !y.isNaN && (x == y || (x.isZero && y.isZero))

end Binary64

end Mediatheque
