import Stencil.Entries

/-!
# TOML tables

A document is a table of keys and values, with tables in it that headers and dotted
keys define.

* `Toml`: what a key is set to.
* `Toml.set?`, `Toml.define?`, `Toml.append?`: keys, headers of tables and headers of
  tables in an array; none of them may redefine what is there.
-/

namespace Stencil

/-- What a key of a TOML document is set to. -/
inductive Toml where
  | string (s : String)
  /-- A number, a boolean, a time, an array or a table in braces. -/
  | other
  /-- A table.  It is implied when only a longer path named it, and dotted when that was
  the path of a key. -/
  | table (implied dotted : Bool) (entries : List (String × Toml))
  /-- An array of tables, the last one first. -/
  | tables (all : List (List (String × Toml)))

instance : Inhabited Toml := ⟨.other⟩

namespace Toml

/-- The table that a path leads to, changed; tables that are missing on the way are
implied.  A key, but not a header, stops at tables that were named before. -/
def descend (dotted : Bool) (path : List String)
    (change : Bool → Entries Toml → Option (Entries Toml)) (here : Bool)
    (es : Entries Toml) : Option (Entries Toml) :=
  match path with
  | [] => change here es
  | key :: path =>
    match es.lookup key with
    | none =>
      (descend dotted path change dotted []).map fun inner =>
        Entries.insert key (table true dotted inner) es
    | some (table implied d inner) =>
      if dotted && !implied then none
      else
        (descend dotted path change d inner).map fun inner =>
          Entries.insert key (table implied d inner) es
    | some (tables (last :: before)) =>
      (descend dotted path change false last).map fun last =>
        Entries.insert key (tables (last :: before)) es
    | some _ => none

/-- The table with a key set, below the path before its last name. -/
def set? (path : List String) (key : String) (v : Toml) (es : Entries Toml) :
    Option (Entries Toml) :=
  descend true path
    (fun dotted es =>
      if dotted == path.isEmpty || (es.lookup key).isSome then none
      else some (Entries.insert key v es))
    false es

def define? (path : List String) (key : String) (es : Entries Toml) : Option (Entries Toml) :=
  descend false path
    (fun _ es =>
      match es.lookup key with
      | none => some (Entries.insert key (table false false []) es)
      | some (table true false inner) => some (Entries.insert key (table false false inner) es)
      | some _ => none)
    false es

def append? (path : List String) (key : String) (es : Entries Toml) : Option (Entries Toml) :=
  descend false path
    (fun _ es =>
      match es.lookup key with
      | none => some (Entries.insert key (tables [[]]) es)
      | some (tables all) => some (Entries.insert key (tables ([] :: all)) es)
      | some _ => none)
    false es

/-- The table with a key set in the table that a header named. -/
def setWithin? (header path : List String) (key : String) (v : Toml) (es : Entries Toml) :
    Option (Entries Toml) :=
  descend false header (fun _ es => set? path key v es) false es

end Toml

end Stencil
