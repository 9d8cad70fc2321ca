import Stencil.Document.Basic
import Stencil.Document.Numeral

/-!
# YAML scalars

A plain scalar is null, a boolean, a number or a string by its spelling.

* `Yaml.integer?`: the integers.
* `Yaml.float?`: the other numbers.
* `Yaml.plain?`: what a plain scalar is.
-/

namespace Stencil.Yaml

open Text

def bases : List (List Char × Nat) := [(['0', 'x'], 16), (['0', 'o'], 8), (['0', 'b'], 2)]

def based? (cs : List Char) : Option Nat :=
  bases.findSome? fun (sign, base) =>
    if sign.isPrefixOf cs then numberIn? base (cs.drop sign.length) else none

def isPadded (cs : List Char) : Bool :=
  let digits : List Char :=
    match cs with
    | '-' :: ds => ds
    | '+' :: ds => ds
    | ds => ds
  match digits with
  | '0' :: d :: ds => (d :: ds).all Char.isDigit
  | _ => false

def integer? (cs : List Char) : Option Int :=
  match cs with
  | '-' :: ds =>
    match based? ds with
    | some n => some (-n)
    | none => if isPadded cs then none else (numberIn? 10 ds).map fun n => -n
  | _ =>
    let ds : List Char :=
      match cs with
      | '+' :: ds => ds
      | ds => ds
    match based? ds with
    | some n => some n
    | none => if isPadded cs then none else (numberIn? 10 ds).map fun n => n

def spanDigits (cs : List Char) : List Char × List Char := cs.span Char.isDigit

/-- The exponent at the end of a numeral: nothing, or a sign and digits. -/
def exponent? : List Char → Option (Option (Bool × List Char))
  | [] => some none
  | c :: cs =>
    if c == 'e' || c == 'E' then
      let (negative, ds) : Bool × List Char :=
        match cs with
        | '-' :: ds => (true, ds)
        | '+' :: ds => (false, ds)
        | ds => (false, ds)
      if !ds.isEmpty && ds.all Char.isDigit then some (some (negative, ds)) else none
    else none

/-- The numeral that a scalar spells: digits with a point or without, before which or
after which there may be none, and an exponent. -/
def numeral? (negative : Bool) (cs : List Char) : Option Numeral :=
  let (whole, rest) := spanDigits cs
  let (fraction, rest) : Option (List Char) × List Char :=
    match rest with
    | '.' :: rest => ((spanDigits rest).1, (spanDigits rest).2)
    | rest => (none, rest)
  if whole.isEmpty && (fraction.getD []).isEmpty then none
  else (exponent? rest).map fun exponent => ⟨negative, whole, fraction, exponent⟩

def isInfinity (cs : List Char) : Bool :=
  [".inf".toList, ".Inf".toList, ".INF".toList].contains cs

/-- The number that a scalar spells: none of two signs, and finite unless it says
otherwise. -/
def float? (cs : List Char) : Option Number :=
  let (negative, signed, ds) : Bool × Bool × List Char :=
    match cs with
    | '-' :: ds => (true, true, ds)
    | '+' :: ds => (false, true, ds)
    | ds => (false, false, ds)
  if isInfinity ds then some (.infinite negative)
  else if !signed && [".nan".toList, ".NaN".toList, ".NAN".toList].contains ds then some .nan
  else
    match (numeral? negative ds).map Numeral.exact with
    | some (.finite sign m) => some (.finite sign m)
    | _ => none

def fitsBits (bits : Nat) : Int → Bool
  | .ofNat n => n < Nat.pow 2 bits
  | .negSucc n => n < Nat.pow 2 (bits - 1)

/-- A number by its float; what is not finite becomes null. -/
def ofFloat : Number → Document
  | .finite sign m => .number (some (.finite sign m))
  | _ => .null

/-- What a plain scalar is; none for an integer of more than 64 bits that a reader of 128-bit
integers would still know. -/
def plain? (text : String) : Option Document :=
  let cs := text.toList
  if ["", "~", "null", "Null", "NULL"].contains text then some .null
  else if ["true", "True", "TRUE"].contains text then some (.bool true)
  else if ["false", "False", "FALSE"].contains text then some (.bool false)
  else
    let other : Document :=
      if isPadded cs then .string text else ((float? cs).map ofFloat).getD (.string text)
    match integer? cs with
    | none => some other
    | some n =>
      if fitsBits 64 n then some (.number (some (.ofInt n)))
      else if fitsBits 128 n then none
      else some other

end Stencil.Yaml
