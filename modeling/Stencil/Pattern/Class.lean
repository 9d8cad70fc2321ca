import Stencil.Pattern.Escape

/-!
# Bracketed classes

A class in brackets is a union of characters, ranges and classes.  Two ampersands,
hyphens or tildes between unions intersect, subtract, or keep what only one side
has; they bind less than the union and group to the left.

* `Pattern.readClass`: what follows an opening bracket.
-/

namespace Stencil

open Text

namespace Pattern

inductive SetOp where
  | inter | diff | symmDiff
  deriving DecidableEq, Repr

def SetOp.apply : SetOp → CharSet → CharSet → CharSet
  | inter, a, b => .inter a b
  | diff, a, b => .diff a b
  | symmDiff, a, b => .symmDiff a b

/-- The left side of an operation that waits for its right side. -/
abbrev LeftSide := Option (CharSet × SetOp)

def joinSides (flags : Flags) (left : LeftSide) (right : CharSet) : CharSet :=
  match left with
  | some (a, op) => op.apply (caseClosed flags a) (caseClosed flags right)
  | none => right

/-- Reads the name of an ASCII class, with the colons around it.  What is no such
class is read as a class of its own. -/
def readAsciiClass? (flags : Flags) (cs : List Char) : Option (CharSet × List Char) :=
  match cs with
  | ':' :: cs =>
    let (negated, cs) : Bool × List Char :=
      match cs with
      | '^' :: cs => (true, cs)
      | _ => (false, cs)
    match cs.span (· != ':') with
    | (name, ':' :: ']' :: rest) =>
      (asciiClass? (String.ofList name)).map fun s =>
        (negatedIf negated (caseClosed flags s), rest)
    | _ => none
  | _ => none

def readItem (flags : Flags) : List Char → Reading Atom
  | [] => .error .classUnclosed
  | '\\' :: cs => readEscape flags cs
  | c :: cs => .ok (.char c, cs)

def itemSet : Atom → Except PatternFault CharSet
  | .char c => .ok (.single c)
  | .set s => .ok s
  | .anchor _ => .error .classItemInvalid

def rangeSet : Atom → Atom → Except PatternFault CharSet
  | .char a, .char b => if a ≤ b then .ok (.range a b) else .error .classRangeReversed
  | _, _ => .error .classRangeEnd

/-- Whether a hyphen, followed by this text, makes a range of its neighbours. -/
def makesRange (flags : Flags) (afterHyphen : List Char) : Bool :=
  match skipBlanks flags afterHyphen with
  | ']' :: _ => false
  | '-' :: _ => false
  | _ => true

def readRange (flags : Flags) (cs : List Char) : Reading CharSet :=
  (readItem flags cs).bind fun (first, cs) =>
    match skipBlanks flags cs with
    | [] => .error .classUnclosed
    | '-' :: cs =>
      if makesRange flags cs then
        (readItem flags (skipBlanks flags cs)).bind fun (last, cs) =>
          (rangeSet first last).map (·, cs)
      else (itemSet first).map (·, '-' :: cs)
    | cs => (itemSet first).map (·, cs)

/-- Reads the hyphens at the start of a class, which stand for themselves. -/
def readHyphens (flags : Flags) (items : List CharSet) :
    Nat → List Char → List CharSet × List Char
  | 0, cs => (items, cs)
  | fuel + 1, cs =>
    match cs with
    | '-' :: cs => readHyphens flags (.single '-' :: items) fuel (skipBlanks flags cs)
    | _ => (items, cs)

/-- Reads the start of a class: a caret that negates, hyphens, and a closing bracket
that stands for itself.  Returns whether the class is negated and its first items. -/
def readClassStart (flags : Flags) (cs : List Char) : Bool × List CharSet × List Char :=
  let cs := skipBlanks flags cs
  let (negated, cs) : Bool × List Char :=
    match cs with
    | '^' :: cs => (true, skipBlanks flags cs)
    | _ => (false, cs)
  match readHyphens flags [] cs.length cs with
  | ([], ']' :: cs) => (negated, [.single ']'], skipBlanks flags cs)
  | (items, cs) => (negated, items, cs)

def closeClass (flags : Flags) (negated : Bool) (left : LeftSide) (items : List CharSet) :
    CharSet :=
  negatedIf negated (caseClosed flags (joinSides flags left (.unions items.reverse)))

mutual

def readClass (flags : Flags) : Nat → List Char → Reading CharSet
  | 0, _ => .error .classUnclosed
  | fuel + 1, cs =>
    let (negated, items, cs) := readClassStart flags cs
    if negated && !flags.unicode then .error .splitsCharacters
    else readClassItems flags negated none items fuel cs

def readClassItems (flags : Flags) (negated : Bool) (left : LeftSide) (items : List CharSet) :
    Nat → List Char → Reading CharSet
  | 0, _ => .error .classUnclosed
  | fuel + 1, cs =>
    match skipBlanks flags cs with
    | [] => .error .classUnclosed
    | ']' :: cs => .ok (closeClass flags negated left items, cs)
    | '[' :: cs =>
      match readAsciiClass? flags cs with
      | some (s, cs) => readClassItems flags negated left (s :: items) fuel cs
      | none =>
        match readClass flags fuel cs with
        | .ok (s, cs) => readClassItems flags negated left (s :: items) fuel cs
        | .error e => .error e
    | '&' :: '&' :: cs =>
      readClassItems flags negated (some (joinSides flags left (.unions items.reverse), .inter))
        [] fuel cs
    | '-' :: '-' :: cs =>
      readClassItems flags negated (some (joinSides flags left (.unions items.reverse), .diff))
        [] fuel cs
    | '~' :: '~' :: cs =>
      readClassItems flags negated
        (some (joinSides flags left (.unions items.reverse), .symmDiff)) [] fuel cs
    | cs =>
      match readRange flags cs with
      | .ok (s, cs) => readClassItems flags negated left (s :: items) fuel cs
      | .error e => .error e

end

end Pattern

end Stencil
