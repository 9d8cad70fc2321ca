import Stencil.Document.Toml.Text

/-!
# TOML numbers and times

The values of numbers, times and booleans are of no use here; that they are well-formed
is all that is told.

* `Toml.isInteger`, `Toml.isFloat`: numbers.
* `Toml.isMoment`: dates and times of day.
* `Toml.skipScalar`: the text after one of them or a boolean.
-/

namespace Stencil.Toml

open Text

/-! ## Numbers -/

/-- Whether digits, one at least, stand in a text with single underscores between
them. -/
def isDigits (digit : Char → Bool) : List Char → Bool
  | [] => false
  | [c] => digit c
  | c :: '_' :: cs => digit c && isDigits digit cs
  | c :: cs => digit c && isDigits digit cs

def digitsOf (cs : List Char) : List Char := cs.filter (· != '_')

def valueIn (base : Nat) (cs : List Char) : Nat :=
  numberOfDigits base ((digitsOf cs).filterMap (digitIn? base))

def unsigned : List Char → Bool × List Char
  | '-' :: cs => (true, cs)
  | '+' :: cs => (false, cs)
  | cs => (false, cs)

/-- Whether a text is the whole part of a number: decimal digits without a zero before
others. -/
def isWhole (cs : List Char) : Bool :=
  isDigits Char.isDigit cs && (cs.length == 1 || cs.head? != some '0')

def isNatural (base : Nat) (cs : List Char) : Bool :=
  isDigits (fun c => (digitIn? base c).isSome) cs && valueIn base cs < Nat.pow 2 63

def isInteger (cs : List Char) : Bool :=
  match cs with
  | '0' :: 'x' :: ds => isNatural 16 ds
  | '0' :: 'o' :: ds => isNatural 8 ds
  | '0' :: 'b' :: ds => isNatural 2 ds
  | _ =>
    let (negative, ds) := unsigned cs
    isWhole ds && (isNatural 10 ds || (negative && valueIn 10 ds == Nat.pow 2 63))

/-- Whether a decimal is less than every number beyond the greatest one of 64 bits. -/
def isFinite (digits : List Char) (fraction : Nat) (exponent : Int) : Bool :=
  let n := valueIn 10 digits
  let e := exponent - fraction
  let size : Int := (Nat.toDigits 10 n).length
  n == 0 || size + e < 309 ||
    (size + e == 309 &&
      n * Nat.pow 10 e.toNat < (Nat.pow 2 1024 - Nat.pow 2 970) * Nat.pow 10 (-e).toNat)

def isFloat (cs : List Char) : Bool :=
  let (_, ds) := unsigned cs
  if ds == "inf".toList || ds == "nan".toList then true
  else
    let (mantissa, rest) := ds.span fun c => c != 'e' && c != 'E'
    let (whole, point) := mantissa.span (· != '.')
    let fraction := point.drop 1
    let (negative, power) := unsigned (rest.drop 1)
    isWhole whole && (point.isEmpty || isDigits Char.isDigit fraction) &&
      (rest.isEmpty || isDigits Char.isDigit power) && (!point.isEmpty || !rest.isEmpty) &&
      isFinite (whole ++ fraction) (digitsOf fraction).length
        (if negative then -(valueIn 10 power : Int) else valueIn 10 power)

/-! ## Times -/

/-- The number that so many digits at the start of a text spell, and what follows
them. -/
def fixedDigits? (count : Nat) (cs : List Char) : Option (Nat × List Char) :=
  let ds := cs.take count
  if ds.length == count && ds.all Char.isDigit then some (valueIn 10 ds, cs.drop count) else none

def daysIn (year month : Nat) : Nat :=
  if month == 2 then
    if year % 4 == 0 && (year % 100 != 0 || year % 400 == 0) then 29 else 28
  else if month == 4 || month == 6 || month == 9 || month == 11 then 30
  else 31

def afterDate? (cs : List Char) : Option (List Char) :=
  match fixedDigits? 4 cs with
  | some (year, '-' :: cs) =>
    match fixedDigits? 2 cs with
    | some (month, '-' :: cs) =>
      match fixedDigits? 2 cs with
      | some (day, cs) =>
        if 1 ≤ month && month ≤ 12 && 1 ≤ day && day ≤ daysIn year month then some cs else none
      | none => none
    | _ => none
  | _ => none

def afterMinute? (cs : List Char) : Option (List Char) :=
  match fixedDigits? 2 cs with
  | some (hour, ':' :: cs) =>
    match fixedDigits? 2 cs with
    | some (minute, cs) => if hour < 24 && minute < 60 then some cs else none
    | none => none
  | _ => none

def afterTime? (cs : List Char) : Option (List Char) :=
  match afterMinute? cs with
  | some (':' :: cs) =>
    match fixedDigits? 2 cs with
    | some (second, '.' :: d :: cs) =>
      if second ≤ 60 && d.isDigit then some (cs.dropWhile Char.isDigit) else none
    | some (second, cs) => if second ≤ 60 then some cs else none
    | none => none
  | _ => none

def isOffset : List Char → Bool
  | [] => true
  | ['Z'] | ['z'] => true
  | c :: cs => (c == '+' || c == '-') && afterMinute? cs == some []

def isMoment (cs : List Char) : Bool :=
  afterTime? cs == some [] ||
    match afterDate? cs with
    | some [] => true
    | some (c :: cs) =>
      (c == 'T' || c == 't' || c == ' ') && (afterTime? cs).any isOffset
    | none => false

/-! ## Words -/

def isScalarChar (c : Char) : Bool := c.isAlphanum || c == '_' || c == '+' || c == '-' ||
  c == '.' || c == ':'

/-- Skips a number, a time or a boolean. -/
def skipScalar (cs : List Char) : Except TomlFault (List Char) :=
  let (word, rest) := cs.span isScalarChar
  let (more, afterMore) : List Char × List Char :=
    match rest with
    | ' ' :: c :: cs => if c.isDigit then (c :: cs).span isScalarChar else ([], rest)
    | _ => ([], rest)
  if afterDate? word == some [] && !more.isEmpty then
    if isMoment (word ++ ' ' :: more) then .ok afterMore else .error .valueInvalid
  else if word == "true".toList || word == "false".toList || isInteger word || isFloat word ||
      isMoment word then .ok rest
  else .error .valueInvalid

end Stencil.Toml
