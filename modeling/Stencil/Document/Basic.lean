import Stencil.Value

/-!
# Documents

A document as its reader hands it over, and the value it describes.

* `Document`: a document.
* `Document.value`: its value.
-/

namespace Stencil

/-- A document.  The members of an object are kept in order. -/
inductive Document where
  | null
  | bool (b : Bool)
  /-- A number, as the float it is read as, if there is one. -/
  | number (n : Option Number)
  | string (s : String)
  | array (items : List Document)
  | object (members : List (String × Document))

instance : Inhabited Document := ⟨.null⟩

namespace Document

mutual

/-- The value of a document: what is a number and no float counts as null, and of members with
one name the last. -/
def value : Document → Value
  | null => .null
  | bool b => .bool b
  | number (some n) => .number n
  | number none => .null
  | string s => .string s
  | array vs => .list (values vs)
  | object ms => .map (Entries.ofPairs (pairs ms))
termination_by structural v => v

def values : List Document → List Value
  | [] => []
  | v :: vs => v.value :: values vs
termination_by structural vs => vs

def pairs : List (String × Document) → List (String × Value)
  | [] => []
  | m :: ms => pair m :: pairs ms
termination_by structural ms => ms

def pair : String × Document → String × Value
  | (name, v) => (name, v.value)
termination_by structural m => m

end

end Document

end Stencil
