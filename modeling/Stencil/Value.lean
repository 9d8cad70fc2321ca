import Stencil.Entries
import Stencil.Number.Shortest
import Stencil.Text.Digit

/-!
# Values

* `Value`: the data that templates show.
* `Value.text`: the form in which a value is inserted.
* `Value.isTruthy`, `Value.get?`, `Value.items`: the uses of a value.
* `Value.same`: equality, without regard to the order of map entries.
-/

namespace Stencil

open Text

/-- A value.  The entries of a map are kept in order. -/
inductive Value where
  | null
  | bool (b : Bool)
  | number (n : Number)
  | string (s : String)
  | list (items : List Value)
  | map (entries : List (String × Value))

instance : Inhabited Value := ⟨.null⟩

/-- The position that a key names in a list: decimal digits, with a plus sign or
without, for a number below `2 ^ 64`. -/
def listIndex? (key : String) : Option Nat :=
  let digits : List Char :=
    match key.toList with
    | '+' :: ds => ds
    | ds => ds
  let n := decimalValue digits
  if !digits.isEmpty && digits.all Char.isDigit && n < Nat.pow 2 64 then some n else none

namespace Value

/-- Whether a condition on a value holds: not for null, false, zero, not a number and
the empty string. -/
def isTruthy : Value → Bool
  | null => false
  | bool b => b
  | number .nan => false
  | number n => !n.isZero
  | string s => !s.isEmpty
  | list _ => true
  | map _ => true

def get? : Value → String → Option Value
  | map es, key => es.lookup key
  | list vs, key => (listIndex? key).bind fun i => vs[i]?
  | _, _ => none

def getPath? (v : Value) : List String → Option Value
  | [] => some v
  | key :: keys => (v.get? key).bind fun w => w.getPath? keys

def items : Value → List Value
  | list vs => vs
  | map es => es.map (·.2)
  | string s => s.toList.map fun c => string (String.ofList [c])
  | _ => []

mutual

/-- The form in which a value is inserted. -/
def text : Value → String
  | null => ""
  | bool b => if b then "true" else "false"
  | number n => n.text
  | string s => s
  | list vs => ",".intercalate (texts vs)
  | map _ => ""
termination_by structural v => v

def texts : List Value → List String
  | [] => []
  | v :: vs => v.text :: texts vs
termination_by structural vs => vs

end

/-! ## Equality -/

mutual

/-- Whether two values are equal.  Maps are when each has the entries of the other. -/
def same : Value → Value → Bool
  | null, null => true
  | bool a, bool b => a == b
  | number a, number b => a.same b
  | string a, string b => a == b
  | list as, list bs => sameItems as bs
  | map as, map bs => entriesIn as bs && bs.all fun e => (as.lookup e.1).isSome
  | _, _ => false
termination_by structural v => v

def sameItems : List Value → List Value → Bool
  | [], [] => true
  | a :: as, b :: bs => a.same b && sameItems as bs
  | _, _ => false
termination_by structural vs => vs

def entriesIn : Entries Value → Entries Value → Bool
  | [], _ => true
  | e :: es, fs => entryIn e fs && entriesIn es fs
termination_by structural es => es

def entryIn : String × Value → Entries Value → Bool
  | (k, v), fs => (fs.lookup k).any fun w => v.same w
termination_by structural e => e

end

end Value

end Stencil
