import Stencil.Path
import Stencil.Value

/-!
# Contexts and scopes

* `Context`: the variables a template is rendered against.
* `Scope`: a context with the variables of the loops around.
* `Scope.resolve`: the value of a path, the empty string when there is none.
-/

namespace Stencil

/-- The variables a template is rendered against. -/
structure Context where
  entries : Entries Value := []

namespace Context

def empty : Context := {}

def insert (c : Context) (key : String) (v : Value) : Context := ⟨Entries.insert key v c.entries⟩

/-- The context of variables set one after another. -/
def ofPairs (pairs : List (String × Value)) : Context := ⟨Entries.ofPairs pairs⟩

def get? (c : Context) (key : String) : Option Value := c.entries.lookup key

/-- The value that a path of keys leads to. -/
def getPath? (c : Context) : List String → Option Value
  | [] => none
  | key :: keys => (c.get? key).bind fun v => v.getPath? keys

def size (c : Context) : Nat := c.entries.length

/-- Whether two contexts have equal variables. -/
def same (a b : Context) : Bool := (Value.map a.entries).same (.map b.entries)

theorem get?_insert (c : Context) (key : String) (v : Value) (k : String) :
    (c.insert key v).get? k = if k = key then some v else c.get? k :=
  Entries.lookup_insert key v c.entries k

end Context

/-- The variables in sight: those of a context, and those of the loops around. -/
inductive Scope where
  | root (context : Context)
  | round (outer : Scope) (itemName : String) (item : Value) (indexName : String) (index : Nat)

namespace Scope

/-- The value of a variable.  Of the variables of a loop the item hides the index. -/
def lookup : Scope → String → Option Value
  | root context, name => context.get? name
  | round outer itemName item indexName index, name =>
    if name = itemName then some item
    else if name = indexName then some (.number (.ofNat index))
    else outer.lookup name

/-- The value of a path, the empty string when there is none. -/
def resolve (s : Scope) (p : Path) : Value :=
  match p.segments with
  | [] => .string ""
  | key :: keys => ((s.lookup key).bind fun v => v.getPath? keys).getD (.string "")

end Scope

end Stencil
