import Stencil.Number.Binary
import Stencil.Text.Digit

/-!
# Numerals

* `Numeral`: a decimal number as it is written.
* `Numeral.exact`: the number nearest to a numeral.
* `Numeral.quick?`: the number that a reader with 64-bit integers makes of it.
-/

namespace Stencil

open Text

/-- A decimal number as it is written. -/
structure Numeral where
  negative : Bool
  whole : List Char
  fraction : Option (List Char)
  exponent : Option (Bool × List Char)
  deriving DecidableEq, Repr

namespace Numeral

def exponentValue (n : Numeral) : Int :=
  match n.exponent with
  | none => 0
  | some (negative, digits) => if negative then -decimalValue digits else decimalValue digits

def isWhole (n : Numeral) : Bool := n.fraction.isNone && n.exponent.isNone

def exact (n : Numeral) : Number :=
  let fraction := n.fraction.getD []
  .ofDecimal n.negative (decimalValue (n.whole ++ fraction)) (n.exponentValue - fraction.length)

/-! ## Reading by 64-bit integers -/

/-- One digit more, unless the number would no longer fit 64 bits. -/
def addDigit? (n : Nat) (d : Char) : Option Nat :=
  let m := 10 * n + (d.toNat - 48)
  if m < Nat.pow 2 64 then some m else none

def takeWhole (n : Nat) : List Char → Nat × Nat
  | [] => (n, 0)
  | d :: ds =>
    match addDigit? n d with
    | some m => takeWhole m ds
    | none => (n, (d :: ds).length)

/-- The digits of the fraction that still fit 64 bits after others, as a number, and
their count. -/
def takeFraction (n : Nat) : List Char → Nat × Nat
  | [] => (n, 0)
  | d :: ds =>
    match addDigit? n d with
    | some m =>
      let (k, count) := takeFraction m ds
      (k, count + 1)
    | none => (n, 0)

def powerOfTen? (k : Nat) : Option Magnitude := Magnitude.round? (Nat.pow 10 k) 1

/-- A magnitude times `10 ^ exponent`, in steps of at most `10 ^ 308`, each of them
rounded; none when it becomes too large.  Three steps down always end in zero. -/
def scale? (m : Magnitude) (exponent : Int) : Nat → Option Magnitude
  | 0 => some .zero
  | fuel + 1 =>
    if m.mantissa = 0 then some m
    else if 308 < exponent then none
    else if 0 ≤ exponent then (powerOfTen? exponent.toNat).bind m.mul?
    else if -308 ≤ exponent then (powerOfTen? (-exponent).toNat).bind m.div?
    else ((powerOfTen? 308).bind m.div?).bind fun m => scale? m (exponent + 308) fuel

def clampExponent (e : Int) : Int := max (-2147483648) (min 2147483647 e)

/-- The number that a reader makes of a numeral by keeping as many digits as fit 64
bits, and multiplying or dividing by a power of ten; none when it is too large.  An
integer that fits is read exactly. -/
def quick? (n : Numeral) : Option Number :=
  let (whole, skipped) := takeWhole 0 n.whole
  if n.isWhole && skipped == 0 then some (.ofRatio n.negative whole 1)
  else
    let (digits, count) := takeFraction whole (n.fraction.getD [])
    let exponent := n.exponentValue
    if exponent.natAbs ≥ Nat.pow 2 31 then
      if digits ≠ 0 ∧ 0 < exponent then none else some (.finite n.negative .zero)
    else
      (Magnitude.round? digits 1).bind fun m =>
        (scale? m (clampExponent (exponent + skipped - count)) 4).map (.finite n.negative)

end Numeral

end Stencil
