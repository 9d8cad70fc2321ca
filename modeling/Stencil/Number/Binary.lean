/-!
# Binary numbers

Numbers have 53 significant binary digits: not a number, the two infinities, and
`± mantissa · 2 ^ exponent` units of `2 ^ -1074`.

* `Magnitude`: a finite number without its sign, in its only form.
* `Magnitude.round?`: the nearest magnitude to a quotient, to the even one of two.
* `Number`: a number.
* `Number.same`: equality of numbers as the program sees it.
-/

namespace Stencil

/-- A finite number without its sign: `mantissa · 2 ^ exponent` units.  A mantissa of
fewer than 53 digits occurs with exponent 0 only. -/
structure Magnitude where
  mantissa : Nat
  exponent : Nat
  mantissa_lt : mantissa < Nat.pow 2 53
  exponent_le : exponent ≤ 2045
  full : exponent = 0 ∨ Nat.pow 2 52 ≤ mantissa
  deriving DecidableEq, Repr

namespace Magnitude

/-- The number of units in one: the value of a magnitude is its units divided by
this. -/
def unitsPerOne : Nat := Nat.pow 2 1074

def units (m : Magnitude) : Nat := m.mantissa * Nat.pow 2 m.exponent

def zero : Magnitude := ⟨0, 0, by decide, by decide, .inl rfl⟩

def make? (mantissa exponent : Nat) : Option Magnitude :=
  if h : mantissa < Nat.pow 2 53 ∧ exponent ≤ 2045 ∧ (exponent = 0 ∨ Nat.pow 2 52 ≤ mantissa) then
    some ⟨mantissa, exponent, h.1, h.2.1, h.2.2⟩
  else none

/-- The integer nearest to a quotient, the even one of two. -/
def nearest (num den : Nat) : Nat :=
  let q := num / den
  let r := num % den
  if 2 * r < den then q else if den < 2 * r then q + 1 else q + q % 2

/-- The exponent that leaves 53 digits of a quotient of units. -/
def exponentFor (num den : Nat) : Nat := (num / den).log2 - 52

/-- The magnitude nearest to `num / den`, the one with an even mantissa of two; none
when that is too large. -/
def round? (num den : Nat) : Option Magnitude :=
  let scaled := num * unitsPerOne
  let exponent := exponentFor scaled den
  let mantissa := nearest scaled (den * Nat.pow 2 exponent)
  if mantissa = Nat.pow 2 53 then make? (Nat.pow 2 52) (exponent + 1) else make? mantissa exponent

def mul? (a b : Magnitude) : Option Magnitude :=
  round? (a.units * b.units) (unitsPerOne * unitsPerOne)

def div? (a b : Magnitude) : Option Magnitude := round? a.units b.units

end Magnitude

inductive Number where
  | nan
  | infinite (negative : Bool)
  | finite (negative : Bool) (magnitude : Magnitude)
  deriving DecidableEq, Repr

namespace Number

/-- The number with a sign and a magnitude; none stands for one that is too large. -/
def ofMagnitude (negative : Bool) : Option Magnitude → Number
  | some m => finite negative m
  | none => infinite negative

def ofRatio (negative : Bool) (num den : Nat) : Number :=
  ofMagnitude negative (Magnitude.round? num den)

def ofNat (n : Nat) : Number := ofRatio false n 1

def ofInt (n : Int) : Number := ofRatio (n < 0) n.natAbs 1

/-- The number nearest to `digits · 10 ^ exponent`.  Beyond the range of numbers the
power is not computed: `10 ^ 310` is too large, and `10 ^ -330` rounds to zero. -/
def ofDecimal (negative : Bool) (digits : Nat) (exponent : Int) : Number :=
  let length : Int := (Nat.toDigits 10 digits).length
  if digits = 0 ∨ length + exponent < -330 then finite negative .zero
  else if length + exponent > 310 then infinite negative
  else if exponent < 0 then ofRatio negative digits (Nat.pow 10 (-exponent).toNat)
  else ofRatio negative (digits * Nat.pow 10 exponent.toNat) 1

/-- The number of a 64-bit word: a sign bit, eleven bits of exponent, and 52 bits of
mantissa after the leading one. -/
def ofBits (word : Nat) : Number :=
  let negative := word / Nat.pow 2 63 % 2 == 1
  let exponent := word / Nat.pow 2 52 % Nat.pow 2 11
  let fraction := word % Nat.pow 2 52
  if exponent = 2047 then if fraction = 0 then infinite negative else nan
  else if exponent = 0 then ofMagnitude negative (Magnitude.make? fraction 0)
  else ofMagnitude negative (Magnitude.make? (Nat.pow 2 52 + fraction) (exponent - 1))

/-- Whether two numbers are equal: not a number equals nothing, and zero equals minus
zero. -/
def same : Number → Number → Bool
  | nan, _ => false
  | _, nan => false
  | infinite a, infinite b => a == b
  | finite a m, finite b n => (m == n) && (a == b || m.mantissa == 0)
  | _, _ => false

def isZero : Number → Bool
  | finite _ m => m.mantissa == 0
  | _ => false

end Number

end Stencil
