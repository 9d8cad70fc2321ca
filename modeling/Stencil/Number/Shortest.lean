import Stencil.Number.Binary

/-!
# Decimal text of numbers

A number is written with the fewest decimal digits that read back as it, and of
those with the digits nearest to it.

* `Magnitude.readsBack`: whether a decimal rounds to a magnitude.
* `Magnitude.shortest`: the digits and the exponent of a magnitude.
* `Number.text`: a number in writing.
-/

namespace Stencil

def decimalLength (n : Nat) : Nat := (Nat.toDigits 10 n).length

namespace Magnitude

def decimalExponent (m : Magnitude) : Int :=
  if unitsPerOne ≤ m.units then (decimalLength (m.units / unitsPerOne) : Int) - 1
  else - (decimalLength ((unitsPerOne + m.units - 1) / m.units - 1) : Int)

/-- Four times the lower end of what rounds to a magnitude, in units.  Below a power of
two the step to the next magnitude is half as long. -/
def low4 (m : Magnitude) : Nat :=
  if m.mantissa = Nat.pow 2 52 ∧ m.exponent ≠ 0 then
    4 * m.units - Nat.pow 2 m.exponent
  else 4 * m.units - 2 * Nat.pow 2 m.exponent

def high4 (m : Magnitude) : Nat := 4 * m.units + 2 * Nat.pow 2 m.exponent

/-- The units of `10 ^ exponent` as a quotient. -/
def gridUnits (exponent : Int) : Nat × Nat :=
  if 0 ≤ exponent then (unitsPerOne * Nat.pow 10 exponent.toNat, 1)
  else (unitsPerOne, Nat.pow 10 (-exponent).toNat)

/-- Whether `digits · 10 ^ exponent` rounds to a magnitude.  The ends do when the
mantissa is even. -/
def readsBack (m : Magnitude) (digits : Nat) (exponent : Int) : Bool :=
  let (num, den) := gridUnits exponent
  let value := 4 * digits * num
  if m.mantissa % 2 = 0 then m.low4 * den ≤ value && value ≤ m.high4 * den
  else m.low4 * den < value && value < m.high4 * den

/-- The multiple of `10 ^ exponent` that rounds to a magnitude and is nearest to it, the
upper one of two. -/
def onGrid? (m : Magnitude) (exponent : Int) : Option Nat :=
  let (num, den) := gridUnits exponent
  let lower := m.units * den / num
  let upper := lower + 1
  let lowerReads := m.readsBack lower exponent
  let upperReads := m.readsBack upper exponent
  if lowerReads && (!upperReads || 2 * (m.units * den) < (lower + upper) * num) then some lower
  else if upperReads then some upper
  else none

/-- The first grid, from `count` significant digits on, with a multiple that rounds to a
magnitude. -/
def searchGrids (m : Magnitude) (count : Nat) : Nat → Nat × Int
  | 0 => (0, 0)
  | fuel + 1 =>
    let exponent := m.decimalExponent - count + 1
    match m.onGrid? exponent with
    | some digits => (digits, exponent)
    | none => m.searchGrids (count + 1) fuel

/-- The shortest decimal of a magnitude: its digits, without zeros at the end, and the
exponent of the first digit.  Seventeen digits always suffice. -/
def shortest (m : Magnitude) : List Char × Int :=
  let (digits, exponent) := m.searchGrids 1 17
  let text := Nat.toDigits 10 digits
  ((text.reverse.dropWhile (· == '0')).reverse, exponent + text.length - 1)

end Magnitude

def scientificText : List Char → List Char
  | [] => []
  | [d] => [d]
  | d :: ds => d :: '.' :: ds

def positionalText (digits : List Char) (exponent : Int) : List Char :=
  if exponent < 0 then '0' :: '.' :: (List.replicate ((-exponent).toNat - 1) '0' ++ digits)
  else
    let whole := exponent.toNat + 1
    if digits.length ≤ whole then digits ++ List.replicate (whole - digits.length) '0'
    else digits.take whole ++ '.' :: digits.drop whole

/-- The text of a magnitude that is not zero: an exponent part is written from `10 ^ 21`
on and below `10 ^ -6`. -/
def Magnitude.text (m : Magnitude) : List Char :=
  let (digits, exponent) := m.shortest
  if 21 ≤ exponent then
    scientificText digits ++ 'e' :: '+' :: Nat.toDigits 10 exponent.toNat
  else if exponent ≤ -7 then
    scientificText digits ++ 'e' :: '-' :: Nat.toDigits 10 (-exponent).toNat
  else positionalText digits exponent

def Number.text : Number → String
  | nan => "NaN"
  | infinite negative => if negative then "-Infinity" else "Infinity"
  | finite negative m =>
    if m.mantissa = 0 then "0"
    else String.ofList (if negative then '-' :: m.text else m.text)

end Stencil
