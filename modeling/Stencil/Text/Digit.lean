/-!
# Digits

* `digitValue?`: the value of a digit; the letters follow the decimal digits.
* `numberIn?`: the number that digits of a base spell.
* `decimalValue`: the number that decimal digits spell.
* `hexChar?`: the character that hexadecimal digits stand for.
-/

namespace Stencil.Text

/-- The value of a digit, or of a letter counted on after the digits. -/
def digitValue? (c : Char) : Option Nat :=
  if '0' ≤ c && c ≤ '9' then some (c.toNat - 48)
  else if 'a' ≤ c && c ≤ 'z' then some (c.toNat - 87)
  else if 'A' ≤ c && c ≤ 'Z' then some (c.toNat - 55)
  else none

def digitIn? (base : Nat) (c : Char) : Option Nat := (digitValue? c).filter (· < base)

def numberOfDigits (base : Nat) (digits : List Nat) : Nat :=
  digits.foldl (fun n d => base * n + d) 0

/-- The number that digits of a base spell, one at least. -/
def numberIn? (base : Nat) (cs : List Char) : Option Nat :=
  if cs.isEmpty then none else (cs.mapM (digitIn? base)).map (numberOfDigits base)

def decimalValue (digits : List Char) : Nat :=
  numberOfDigits 10 (digits.map fun d => d.toNat - 48)

def charAt? (n : Nat) : Option Char := if n.isValidChar then some (Char.ofNat n) else none

def hexChar? (digits : Nat) (cs : List Char) : Option Char :=
  let ds := cs.take digits
  if ds.length == digits then (numberIn? 16 ds).bind charAt? else none

end Stencil.Text
