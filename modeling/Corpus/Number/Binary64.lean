import Corpus.Text.Basic

/-!
# Binary floating point

Numbers with a fraction are kept as binary64: an integer below 2^53 times a power of two from 2^-1074
on. Both directions are exact arithmetic on natural numbers.

* `Binary64.ofRatio` rounds a quotient to the nearest value, a tie to the even one.
* `Binary64.shortest` gives the fewest decimal digits that read back as the value, and of those the
  nearest to it.
-/

namespace Corpus

/-- **Binary64.** A finite value is `mantissa * 2 ^ exponent`. -/
inductive Binary64 where
  | nan
  | infinite (negative : Bool)
  | finite (negative : Bool) (mantissa : Nat) (exponent : Int)
  deriving DecidableEq

namespace Binary64

/-- The quotient to the nearest integer, a tie to the even one. -/
def roundDiv (num den : Nat) : Nat :=
  let q := num / den
  let r := 2 * (num % den)
  if r < den then q else if den < r then q + 1 else if q % 2 = 0 then q else q + 1

/-- `num / den` scaled by `2 ^ (-exponent)`, as a quotient. -/
def scaled (num den : Nat) (exponent : Int) : Nat × Nat :=
  if 0 ≤ exponent then (num, den * Nat.pow 2 exponent.toNat)
  else (num * Nat.pow 2 (-exponent).toNat, den)

/-- **Rounding a quotient.** The nearest value to `num / den`, where `den` is positive. -/
def ofRatio (negative : Bool) (num den : Nat) : Binary64 :=
  if num = 0 then .finite negative 0 (-1074)
  else
    let guess : Int := (num.log2 : Int) - den.log2
    let below := scaled num den guess
    let magnitude := if below.1 < below.2 then guess - 1 else guess
    let exponent := max (magnitude - 52) (-1074)
    let parts := scaled num den exponent
    let mantissa := roundDiv parts.1 parts.2
    let (mantissa, exponent) :=
      if mantissa = Nat.pow 2 53 then (Nat.pow 2 52, exponent + 1) else (mantissa, exponent)
    if 971 < exponent then .infinite negative else .finite negative mantissa exponent

/-- **Rounding a decimal.** The nearest value to `coefficient * 10 ^ power`. A power so great or so
small that the coefficient cannot bring the value into range is not computed. -/
def ofDecimal (negative : Bool) (coefficient : Nat) (power : Int) : Binary64 :=
  let size := (Nat.toDigits 10 coefficient).length
  if coefficient = 0 ∨ power + size < -400 then .finite negative 0 (-1074)
  else if 400 < power + size then .infinite negative
  else if 0 ≤ power then ofRatio negative (coefficient * Nat.pow 10 power.toNat) 1
  else ofRatio negative coefficient (Nat.pow 10 (-power).toNat)

/-! ### The shortest decimal -/

/-- **A decimal.** The digits after a decimal point that stands `point` places to the right. -/
structure Decimal where
  digits : Text
  point : Int

/-- A positive quotient with the interval of numbers that round to it, all over one denominator. -/
structure Interval where
  low : Nat
  value : Nat
  high : Nat
  denominator : Nat
  closed : Bool

/-- The interval of a positive value. Below a power of two the neighbour is half as far. -/
def interval (mantissa : Nat) (exponent : Int) : Interval :=
  let near := mantissa = Nat.pow 2 52 ∧ -1074 < exponent
  let (unit, denominator) :=
    if 0 ≤ exponent then (4 * Nat.pow 2 exponent.toNat, 4)
    else (4, 4 * Nat.pow 2 (-exponent).toNat)
  { low := mantissa * unit - (if near then unit / 4 else unit / 2)
    value := mantissa * unit
    high := mantissa * unit + unit / 2
    denominator
    closed := mantissa % 2 = 0 }

/-- The number `p` with `10 ^ (p - 1) ≤ num / den < 10 ^ p`. -/
def pointOf (num den : Nat) : Int :=
  if den ≤ num then (Nat.toDigits 10 (num / den)).length
  else
    let size := (Nat.toDigits 10 (den / num)).length
    if den = num * Nat.pow 10 (size - 1) then 2 - size else 1 - size

/-- The nearest number with digits down to the place `place` that lies in the interval. -/
def Interval.nearest? (i : Interval) (place : Int) : Option Nat :=
  let (num, den) :=
    if 0 ≤ place then (1, Nat.pow 10 place.toNat) else (Nat.pow 10 (-place).toNat, 1)
  -- A candidate `n` stands for `n * den / num`.
  let inside (n : Nat) : Bool :=
    let position := n * den * i.denominator
    if i.closed then i.low * num ≤ position && position ≤ i.high * num
    else i.low * num < position && position < i.high * num
  let floor := i.value * num / (i.denominator * den)
  let rest := i.value * num % (i.denominator * den)
  let upFirst := i.denominator * den < 2 * rest ∨ (i.denominator * den = 2 * rest ∧ floor % 2 = 1)
  let candidates := if upFirst then [floor + 1, floor] else [floor, floor + 1]
  candidates.find? fun n => n != 0 && inside n

/-- **Shortest digits.** The decimal with the fewest digits among those that round to the positive
value; seventeen digits always suffice. -/
def shortest (mantissa : Nat) (exponent : Int) : Decimal :=
  let i := interval mantissa exponent
  let point := pointOf i.value i.denominator
  let found := (List.range 17).findSome? fun k =>
    let place := point - (k + 1 : Nat)
    (i.nearest? place).map fun n =>
      let text := Nat.toDigits 10 n
      let kept := (text.reverse.dropWhile (· = '0')).reverse
      { digits := kept, point := place + text.length : Decimal }
  found.getD { digits := ['0'], point := 1 }

/-! ### Layout -/

/-- A decimal with at least one digit on either side of the point, or with an exponent when it stands
below 10^-4 or from 10^16 on. The exponent has a sign and at least two digits. -/
def Decimal.layout (d : Decimal) : Text :=
  if -4 < d.point ∧ d.point ≤ 16 then
    if d.point ≤ 0 then
      '0' :: '.' :: (List.replicate (-d.point).toNat '0' ++ d.digits)
    else
      let whole := d.digits.take d.point.toNat
      let fraction := d.digits.drop d.point.toNat
      whole ++ List.replicate (d.point.toNat - whole.length) '0' ++ '.' ::
        (if fraction.isEmpty then ['0'] else fraction)
  else
    let exponent := d.point - 1
    let sign := if exponent < 0 then '-' else '+'
    let fraction := d.digits.drop 1
    d.digits.take 1 ++ (if fraction.isEmpty then [] else '.' :: fraction) ++ 'e' :: sign ::
      (Nat.toDigits 10 exponent.natAbs).leftpad 2 '0'

/-- **The text of a value.** -/
def text : Binary64 → Text
  | nan => "nan".toList
  | infinite negative => (if negative then ['-'] else []) ++ "inf".toList
  | finite negative mantissa exponent =>
    (if negative then ['-'] else []) ++
      if mantissa = 0 then "0.0".toList else (shortest mantissa exponent).layout

end Binary64

end Corpus
