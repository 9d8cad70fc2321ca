import Stencil.Document.Toml.Scalar
import Stencil.Document.Toml.Table

/-!
# TOML documents

* `Toml.readValue`: the value of a key.
* `Toml.parse`: the table a text spells, or its fault.
-/

namespace Stencil.Toml

mutual

/-- A value within at most `depth` more arrays and tables. -/
def readValue (depth : Nat) : Nat → List Char → Reading Toml
  | 0, _ => .error .valueInvalid
  | fuel + 1, cs =>
    match cs with
    | '"' :: _ => (readString '"' cs).map fun (s, cs) => (string s, cs)
    | '\'' :: _ => (readString '\'' cs).map fun (s, cs) => (string s, cs)
    | '[' :: cs => if depth = 0 then .error .nestedTooDeep else readItems (depth - 1) fuel cs
    | '\x7b' :: cs =>
      if depth = 0 then .error .nestedTooDeep
      else
        match skipBlanks cs with
        | '\x7d' :: cs => .ok (other, cs)
        | cs => readPairs (depth - 1) [] fuel cs
    | cs => (skipScalar cs).map fun cs => (other, cs)
termination_by structural fuel _ => fuel

def readItems (depth : Nat) : Nat → List Char → Reading Toml
  | 0, _ => .error .arrayUnclosed
  | fuel + 1, cs =>
    match skipLines (cs.length + 1) cs with
    | ']' :: cs => .ok (other, cs)
    | cs =>
      match readValue depth fuel cs with
      | .error e => .error e
      | .ok (_, cs) =>
        match skipLines (cs.length + 1) cs with
        | ',' :: cs => readItems depth fuel cs
        | ']' :: cs => .ok (other, cs)
        | _ => .error .arrayUnclosed
termination_by structural fuel _ => fuel

/-- The keys of a table in braces up to its closing brace; `es` are those before. -/
def readPairs (depth : Nat) (es : Entries Toml) : Nat → List Char → Reading Toml
  | 0, _ => .error .tableUnclosed
  | fuel + 1, cs =>
    match readKey [] (cs.length + 1) cs with
    | .error e => .error e
    | .ok ((path, key), '=' :: cs) =>
      match readValue depth fuel (skipBlanks cs) with
      | .error e => .error e
      | .ok (v, cs) =>
        match set? path key v es with
        | none => .error .keyRepeated
        | some es =>
          match skipBlanks cs with
          | ',' :: cs => readPairs depth es fuel cs
          | '\x7d' :: cs => .ok (other, cs)
          | _ => .error .tableUnclosed
    | .ok _ => .error .equalsMissing
termination_by structural fuel _ => fuel

end

def depthLimit : Nat := 79

/-- A document up to some point: its root, and the header of the table that keys are set
in. -/
structure Progress where
  root : Entries Toml := []
  header : List String := []

def readHeader (p : Progress) (cs : List Char) : Reading Progress :=
  let (array, cs) : Bool × List Char :=
    match cs with
    | '[' :: cs => (true, cs)
    | cs => (false, cs)
  match readKey [] (cs.length + 1) cs with
  | .error e => .error e
  | .ok ((path, key), cs) =>
    let rest? : Option (List Char) :=
      match array, cs with
      | true, ']' :: ']' :: cs => some cs
      | false, ']' :: cs => some cs
      | _, _ => none
    match rest? with
    | none => .error .headerUnclosed
    | some cs =>
      match if array then append? path key p.root else define? path key p.root with
      | some root => (finishLine cs).map fun cs => (⟨root, path ++ [key]⟩, cs)
      | none => .error .keyRepeated

def readPair (p : Progress) (cs : List Char) : Reading Progress :=
  match readKey [] (cs.length + 1) cs with
  | .error e => .error e
  | .ok ((path, key), '=' :: cs) =>
    match readValue depthLimit (2 * cs.length + 2) (skipBlanks cs) with
    | .error e => .error e
    | .ok (v, cs) =>
      match setWithin? p.header path key v p.root with
      | some root => (finishLine cs).map fun cs => ({ p with root }, cs)
      | none => .error .keyRepeated
  | .ok _ => .error .equalsMissing

def readDocument (p : Progress) : Nat → List Char → Except TomlFault (Entries Toml)
  | 0, _ => .error .lineEndMissing
  | fuel + 1, cs =>
    match skipLines (cs.length + 1) cs with
    | [] => .ok p.root
    | cs =>
      let line : Reading Progress :=
        match cs with
        | '[' :: rest => readHeader p rest
        | cs => readPair p cs
      match line with
      | .ok (p, cs) => readDocument p fuel cs
      | .error e => .error e

def parse (text : String) : Except TomlFault (Entries Toml) :=
  let cs : List Char :=
    match text.toList with
    | '\ufeff' :: cs => cs
    | cs => cs
  readDocument {} (cs.length + 1) cs

end Stencil.Toml
