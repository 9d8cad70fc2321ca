import Stencil.Document.Yaml.Scalar
import Stencil.Document.Yaml.Token

/-!
# YAML documents

* `Yaml`: a document.
* `Yaml.ofTokens`: the document that tokens make, or their fault.
* `Yaml.parse`: the document a text spells, or its fault.
-/

namespace Stencil

/-- A YAML document. -/
inductive Yaml where
  | scalar (text : String) (plain : Bool)
  | sequence (items : List Yaml)
  | mapping (pairs : List (Yaml × Yaml))

instance : Inhabited Yaml := ⟨.scalar "" true⟩

namespace Yaml

abbrev Reading (α : Type) := Except YamlFault (α × List Token)

def nothing : Yaml := .scalar "" true

/-- Whether the next token is one that stands between nodes, so that a node before it is
not written. -/
def endsEmpty (ends : List Token) : List Token → Bool
  | [] => true
  | t :: _ => ends.contains t

mutual

/-- A node within at most `depth` more collections.  Within brackets and braces no block
may start; as a value of a mapping the items of a sequence need no indentation. -/
def readNode (inBlock unindented : Bool) (depth : Nat) : Nat → List Token → Reading Yaml
  | 0, _ => .error .contentMissing
  | fuel + 1, ts =>
    match ts with
    | .scalar text plain :: ts => .ok (.scalar text plain, ts)
    | t :: ts =>
      if depth = 0 then .error .nestedTooDeep
      else if t == .entry && unindented then
        readItems false (depth - 1) [] fuel (t :: ts)
      else if t == .flowSequenceStart then readFlowItems (depth - 1) [] fuel ts
      else if t == .flowMappingStart then readFlowPairs (depth - 1) [] fuel ts
      else if t == .sequenceStart && inBlock then readItems true (depth - 1) [] fuel ts
      else if t == .mappingStart && inBlock then readPairs (depth - 1) [] fuel ts
      else .error .contentMissing
    | [] => .error .contentMissing
termination_by structural fuel _ => fuel

def readOptional (inBlock unindented : Bool) (ends : List Token) (depth : Nat) :
    Nat → List Token → Reading Yaml
  | 0, _ => .error .contentMissing
  | fuel + 1, ts =>
    if endsEmpty ends ts then .ok (nothing, ts)
    else readNode inBlock unindented depth fuel ts
termination_by structural fuel _ => fuel

/-- The items of a block sequence; `closed` says whether the end of a block closes it. -/
def readItems (closed : Bool) (depth : Nat) (items : List Yaml) :
    Nat → List Token → Reading Yaml
  | 0, _ => .error .entryMissing
  | fuel + 1, ts =>
    match ts with
    | .entry :: ts =>
      let ends := if closed then [.entry, .blockEnd] else [.entry, .key, .value, .blockEnd]
      match readOptional true false ends depth fuel ts with
      | .ok (v, ts) => readItems closed depth (v :: items) fuel ts
      | .error e => .error e
    | .blockEnd :: ts =>
      if closed then .ok (.sequence items.reverse, ts)
      else .ok (.sequence items.reverse, .blockEnd :: ts)
    | ts => if closed then .error .entryMissing else .ok (.sequence items.reverse, ts)
termination_by structural fuel _ => fuel

def readPairs (depth : Nat) (pairs : List (Yaml × Yaml)) : Nat → List Token → Reading Yaml
  | 0, _ => .error .keyMissing
  | fuel + 1, ts =>
    match ts with
    | .blockEnd :: ts => .ok (.mapping pairs.reverse, ts)
    | .key :: ts =>
      match readOptional true true [.key, .value, .blockEnd] depth fuel ts with
      | .error e => .error e
      | .ok (k, .value :: ts) =>
        match readOptional true true [.key, .value, .blockEnd] depth fuel ts with
        | .error e => .error e
        | .ok (v, ts) => readPairs depth ((k, v) :: pairs) fuel ts
      | .ok (k, ts) => readPairs depth ((k, nothing) :: pairs) fuel ts
    | .value :: ts =>
      match readOptional true true [.key, .value, .blockEnd] depth fuel ts with
      | .error e => .error e
      | .ok (v, ts) => readPairs depth ((nothing, v) :: pairs) fuel ts
    | _ => .error .keyMissing
termination_by structural fuel _ => fuel

def readFlowValue (ends : List Token) (depth : Nat) : Nat → List Token → Reading Yaml
  | 0, _ => .error .contentMissing
  | fuel + 1, ts =>
    match ts with
    | .value :: ts => readOptional false false ends depth fuel ts
    | ts => .ok (nothing, ts)
termination_by structural fuel _ => fuel

/-- The items within brackets; a pair among them is a mapping of its own. -/
def readFlowItems (depth : Nat) (items : List Yaml) : Nat → List Token → Reading Yaml
  | 0, _ => .error .separatorMissing
  | fuel + 1, ts =>
    let ends : List Token := [.separator, .flowSequenceEnd]
    let item : Reading Yaml :=
      match ts with
      | .key :: ts =>
        if depth = 0 then .error .nestedTooDeep
        else
          match readOptional false false (.value :: ends) (depth - 1) fuel ts with
          | .error e => .error e
          | .ok (k, ts) =>
            (readFlowValue ends (depth - 1) fuel ts).map fun (v, ts) => (.mapping [(k, v)], ts)
      | ts => readNode false false depth fuel ts
    match ts with
    | .flowSequenceEnd :: ts => .ok (.sequence items.reverse, ts)
    | _ =>
      match item with
      | .error e => .error e
      | .ok (v, .separator :: ts) => readFlowItems depth (v :: items) fuel ts
      | .ok (v, .flowSequenceEnd :: ts) => .ok (.sequence (v :: items).reverse, ts)
      | .ok _ => .error .separatorMissing
termination_by structural fuel _ => fuel

def readFlowPairs (depth : Nat) (pairs : List (Yaml × Yaml)) :
    Nat → List Token → Reading Yaml
  | 0, _ => .error .separatorMissing
  | fuel + 1, ts =>
    let ends : List Token := [.separator, .flowMappingEnd]
    let pair : Reading (Yaml × Yaml) :=
      match ts with
      | .key :: ts =>
        match readOptional false false (.value :: ends) depth fuel ts with
        | .error e => .error e
        | .ok (k, ts) => (readFlowValue ends depth fuel ts).map fun (v, ts) => ((k, v), ts)
      | ts => (readNode false false depth fuel ts).map fun (k, ts) => ((k, nothing), ts)
    match ts with
    | .flowMappingEnd :: ts => .ok (.mapping pairs.reverse, ts)
    | _ =>
      match pair with
      | .error e => .error e
      | .ok (p, .separator :: ts) => readFlowPairs depth (p :: pairs) fuel ts
      | .ok (p, .flowMappingEnd :: ts) => .ok (.mapping (p :: pairs).reverse, ts)
      | .ok _ => .error .separatorMissing
termination_by structural fuel _ => fuel

end

def depthLimit : Nat := 128

/-- The document that tokens make; nothing when there are none. -/
def ofTokens (ts : List Token) : Except YamlFault Yaml :=
  let (marked, ts) : Bool × List Token :=
    match ts with
    | .documentStart :: ts => (true, ts)
    | ts => (false, ts)
  let root : Reading Yaml :=
    if ts.isEmpty || (marked && endsEmpty [.documentStart, .documentEnd] ts) then .ok (nothing, ts)
    else readNode true false depthLimit (3 * ts.length + 3) ts
  root.bind fun (v, ts) =>
    if (ts.dropWhile (· == .documentEnd)).isEmpty then .ok v else .error .severalDocuments

/-! ## Documents -/

def keyText : Yaml → Except YamlFault String
  | scalar text _ => .ok text
  | _ => .error .keyNotScalar

mutual

/-- The document that nodes make; of pairs with one key it keeps the last. -/
def document : Yaml → Except YamlFault Document
  | scalar text plain =>
    if plain then
      match plain? text with
      | some doc => .ok doc
      | none => .error .numberTooLarge
    else .ok (.string text)
  | sequence vs => (documents vs).map .array
  | mapping ps => (members ps).map fun ms => .object (Entries.ofPairs ms)
termination_by structural v => v

def documents : List Yaml → Except YamlFault (List Document)
  | [] => .ok []
  | v :: vs => v.document.bind fun w => (documents vs).map (w :: ·)
termination_by structural vs => vs

def members : List (Yaml × Yaml) → Except YamlFault (List (String × Document))
  | [] => .ok []
  | p :: ps => (member p).bind fun m => (members ps).map (m :: ·)
termination_by structural ps => ps

def member : Yaml × Yaml → Except YamlFault (String × Document)
  | (k, v) => (keyText k).bind fun key => v.document.map (key, ·)
termination_by structural p => p

end

def parse (text : String) : Except YamlFault Document :=
  ((tokens text).bind ofTokens).bind document

end Yaml

end Stencil
