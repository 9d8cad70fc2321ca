import Stencil.Pattern.Class

/-!
# Reading patterns

* `Pattern.Progress`: what is known of a pattern up to some point of its text.
* `Pattern.parse`: the pattern a text spells, or its fault.
-/

namespace Stencil

open Text

namespace Pattern

/-- A group that is still open, with what was read before it. -/
structure OpenGroup where
  index : Option Nat
  flags : Flags
  /-- The finished alternatives around the group, the last one first. -/
  branches : List (Node Unit)
  /-- The items before the group in its alternative, the last one first. -/
  items : List (Option (Node Unit))

/-- What is known of a pattern up to some point of its text.  An item that is `none`
stands for a change of flags, which nothing repeats. -/
structure Progress where
  flags : Flags := {}
  names : List (Option String) := []
  groups : List OpenGroup := []
  branches : List (Node Unit) := []
  items : List (Option (Node Unit)) := []

/-- The greatest number of nodes of a pattern. -/
def sizeLimit : Nat := 50000

/-- The greatest number of groups open at a time. -/
def depthLimit : Nat := 250

namespace Progress

def push (p : Progress) (x : Node Unit) : Progress := { p with items := some x :: p.items }

def branch (p : Progress) : Node Unit := .seqs (p.items.reverse.filterMap id)

def body (p : Progress) : Node Unit := .alts (p.branch :: p.branches).reverse

def nextBranch (p : Progress) : Progress :=
  { p with branches := p.branch :: p.branches, items := [] }

def openGroup (p : Progress) (index : Option Nat) (flags : Flags) :
    Except PatternFault Progress :=
  if p.groups.length ≥ depthLimit then .error .nestedTooDeep
  else .ok { p with
    flags, groups := ⟨index, p.flags, p.branches, p.items⟩ :: p.groups, branches := [],
    items := [] }

def openCapture (p : Progress) (name : Option String) : Except PatternFault Progress :=
  { p with names := name :: p.names }.openGroup (some (p.names.length + 1)) p.flags

def closeGroup (p : Progress) : Except PatternFault Progress :=
  match p.groups with
  | [] => .error .groupUnopened
  | g :: groups =>
    let node : Node Unit :=
      match g.index with
      | some i => .group i p.body
      | none => p.body
    .ok { p with
      flags := g.flags, groups, branches := g.branches, items := some node :: g.items }

def repeatLast (p : Progress) (lazily : Bool) (low : Nat) (high : Option Nat) :
    Except PatternFault Progress :=
  match p.items with
  | some x :: items =>
    if x.size * (max low (high.getD 0) + 1) > sizeLimit then .error .tooLarge
    else .ok { p with
      items := some (x.repeated (lazily == p.flags.swapGreed) low high) :: items }
  | _ => .error .repetitionOfNothing

/-- The finished pattern.  Groups that no longer occur in it have no name, and those
after the last that occurs are not counted. -/
def finish (p : Progress) : Except PatternFault Pattern :=
  match p.groups with
  | _ :: _ => .error .groupUnclosed
  | [] =>
    let root := p.body.gated
    let names := (p.names.reverse.take root.lastGroup).mapIdx fun i name =>
      if root.hasGroup (i + 1) then name else none
    if root.size > sizeLimit then .error .tooLarge else .ok ⟨root, names⟩

end Progress

/-! ## Groups and flags -/

def readGroupName (name : List Char) : List Char → Reading String
  | [] => .error .groupNameUnclosed
  | c :: cs =>
    if c == '>' then
      if name.isEmpty then .error .groupNameEmpty else .ok (String.ofList name.reverse, cs)
    else if c == '_' || isAlphabetic c ||
        (!name.isEmpty && (c == '.' || c == '[' || c == ']' || isAlphanumeric c)) then
      readGroupName (c :: name) cs
    else .error (.groupNameInvalid c)

def setFlag (flags : Flags) (on : Bool) : Char → Except PatternFault Flags
  | 'i' => .ok { flags with ignoreCase := on }
  | 'm' => .ok { flags with multiLine := on }
  | 's' => .ok { flags with dotAll := on }
  | 'U' => .ok { flags with swapGreed := on }
  | 'u' => .ok { flags with unicode := on }
  | 'R' => .ok { flags with crlf := on }
  | 'x' => .ok { flags with verbose := on }
  | c => .error (.flagUnknown c)

/-- Reads flags up to a colon or a closing parenthesis, which is left; `seen` holds
the flags and the hyphen read so far, the last one first. -/
def readFlags (flags : Flags) (seen : List Char) : List Char → Reading Flags
  | [] => .error .flagsUnclosed
  | c :: cs =>
    if c == ':' || c == ')' then
      if seen.head? == some '-' then .error .negationDangling else .ok (flags, c :: cs)
    else if c == '-' then
      if seen.contains '-' then .error .negationRepeated else readFlags flags (c :: seen) cs
    else
      match setFlag flags (!seen.contains '-') c with
      | .error e => .error e
      | .ok flags =>
        if seen.contains c then .error .flagRepeated else readFlags flags (c :: seen) cs

def isLookAround : List Char → Bool
  | '?' :: '=' :: _ | '?' :: '!' :: _ => true
  | '?' :: '<' :: '=' :: _ | '?' :: '<' :: '!' :: _ => true
  | _ => false

def readNamedGroup (p : Progress) (cs : List Char) : Reading Progress :=
  (readGroupName [] cs).bind fun (name, cs) =>
    if p.names.contains (some name) then .error (.groupNameRepeated name)
    else (p.openCapture (some name)).map (·, cs)

/-- Reads flags: they hold for the rest of the group around them, or for a group of
their own. -/
def readFlagGroup (p : Progress) (cs : List Char) : Reading Progress :=
  (readFlags p.flags [] cs).bind fun (flags, rest) =>
    match rest with
    | ')' :: rest =>
      if cs.head? == some ')' then .error .flagsEmpty
      else .ok ({ p with flags, items := none :: p.items }, rest)
    | _ :: rest => (p.openGroup none flags).map (·, rest)
    | [] => .error .flagsUnclosed

def readGroup (p : Progress) (cs : List Char) : Reading Progress :=
  let cs := skipBlanks p.flags cs
  if isLookAround cs then .error .lookAround
  else
    match cs with
    | '?' :: 'P' :: '<' :: cs => readNamedGroup p cs
    | '?' :: '<' :: cs => readNamedGroup p cs
    | '?' :: cs => if cs.isEmpty then .error .groupUnclosed else readFlagGroup p cs
    | cs => (p.openCapture none).map (·, cs)

/-! ## Repetitions -/

def readLazy : List Char → Bool × List Char
  | '?' :: cs => (true, cs)
  | cs => (false, cs)

/-- Reads decimal digits.  In verbose patterns blanks and comments may stand between
them. -/
def readDigits (flags : Flags) (digits : List Char) : Nat → List Char → List Char × List Char
  | 0, cs => (digits.reverse, cs)
  | fuel + 1, cs =>
    match cs with
    | [] => (digits.reverse, [])
    | c :: rest =>
      if c.isDigit then readDigits flags (c :: digits) fuel (skipBlanks flags rest)
      else (digits.reverse, cs)

def readCount (flags : Flags) (cs : List Char) : Reading (Option Nat) :=
  let (digits, cs) := readDigits flags [] (cs.length + 1) (cs.dropWhile isBlank)
  let cs := skipBlanks flags (cs.dropWhile isBlank)
  if digits.isEmpty then .ok (none, cs)
  else if decimalValue digits < Nat.pow 2 32 then .ok (some (decimalValue digits), cs)
  else .error .countTooLarge

/-- Reads the bounds of a repetition, up to the closing brace and with it. -/
def readBounds (flags : Flags) (cs : List Char) : Reading (Nat × Option Nat) :=
  match skipBlanks flags cs with
  | [] => .error .countUnclosed
  | cs =>
    (readCount flags cs).bind fun (low, cs) =>
      match low, cs with
      | some low, '\x7d' :: cs => .ok ((low, some low), cs)
      | some low, ',' :: cs =>
        match skipBlanks flags cs with
        | [] => .error .countUnclosed
        | '\x7d' :: cs => .ok ((low, none), cs)
        | cs =>
          (readCount flags cs).bind fun (high, cs) =>
            match high, cs with
            | some high, '\x7d' :: cs => .ok ((low, some high), cs)
            | some _, _ => .error .countUnclosed
            | none, _ => .error .countMissing
      | some _, _ => .error .countUnclosed
      | none, _ => .error .countMissing

def readCounted (p : Progress) (cs : List Char) : Reading Progress :=
  match p.items with
  | some _ :: _ =>
    (readBounds p.flags cs).bind fun ((low, high), cs) =>
      let (lazily, cs) := readLazy (skipBlanks p.flags cs)
      if high.any (· < low) then .error .countsReversed
      else (p.repeatLast lazily low high).map (·, cs)
  | _ => .error .repetitionOfNothing

def readSigned (p : Progress) (low : Nat) (high : Option Nat) (cs : List Char) :
    Reading Progress :=
  let (lazily, cs) := readLazy cs
  (p.repeatLast lazily low high).map (·, cs)

/-! ## The whole pattern -/

def atomNode (flags : Flags) : Atom → Node Unit
  | .char c => .chars (literalSet flags c) ()
  | .set s => .chars s ()
  | .anchor a => .anchor a

def startAnchor (flags : Flags) : Anchor :=
  if !flags.multiLine then .textStart else if flags.crlf then .returnStart else .lineStart

def endAnchor (flags : Flags) : Anchor :=
  if !flags.multiLine then .textEnd else if flags.crlf then .returnEnd else .lineEnd

def dotSet (flags : Flags) : CharSet :=
  if flags.dotAll then .any
  else if flags.crlf then .compl (.union (.single '\n') (.single '\r'))
  else .compl (.single '\n')

def readPiece (p : Progress) : List Char → Reading Progress
  | [] => .ok (p, [])
  | c :: cs =>
    match c with
    | '(' => readGroup p cs
    | ')' => p.closeGroup.map (·, cs)
    | '|' => .ok (p.nextBranch, cs)
    | '[' =>
      (readClass p.flags (2 * cs.length + 2) cs).map fun (s, cs) => (p.push (.chars s ()), cs)
    | '?' => readSigned p 0 (some 1) cs
    | '*' => readSigned p 0 none cs
    | '+' => readSigned p 1 none cs
    | '\x7b' => readCounted p cs
    | '\\' => (readEscape p.flags cs).map fun (a, cs) => (p.push (atomNode p.flags a), cs)
    | '.' =>
      if p.flags.unicode then .ok (p.push (.chars (dotSet p.flags) ()), cs)
      else .error .splitsCharacters
    | '^' => .ok (p.push (.anchor (startAnchor p.flags)), cs)
    | '$' => .ok (p.push (.anchor (endAnchor p.flags)), cs)
    | c => .ok (p.push (.chars (literalSet p.flags c) ()), cs)

def readPieces (p : Progress) : Nat → List Char → Except PatternFault Pattern
  | 0, _ => .error .tooLarge
  | fuel + 1, cs =>
    match skipBlanks p.flags cs with
    | [] => p.finish
    | cs =>
      match readPiece p cs with
      | .ok (p, cs) => readPieces p fuel cs
      | .error e => .error e

def parse (text : String) : Except PatternFault Pattern :=
  readPieces {} (text.toList.length + 1) text.toList

end Pattern

end Stencil
