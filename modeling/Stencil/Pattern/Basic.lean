import Stencil.Pattern.CharSet

/-!
# Patterns

A pattern says which stretches of a text match, and which of several possible
matches is preferred: of two alternatives the first, of a greedy repetition the
longer, of a lazy one the shorter.

* `Anchor`: a condition on the place between two characters.
* `Node`: the tree of a pattern.  Its character sets carry a value, so that the
  same tree serves as the pattern itself and as the record of what follows each
  of its sets at a place of a text.
* `Node.repeated`: repetition between two bounds, spelled out.
* `Node.gated`: choices that can be reached twice at one place get a gate, so that
  each is made once there.
* `Pattern`: a tree with the names of its groups.
-/

namespace Stencil

open Text

inductive WordEdge where
  | boundary | inside | start | stop | startHalf | stopHalf
  deriving DecidableEq, Repr

inductive Anchor where
  | textStart | textEnd
  | lineStart | lineEnd
  /-- Line starts where a carriage return ends lines too. -/
  | returnStart
  /-- Line ends where a carriage return ends lines too. -/
  | returnEnd
  | word (edge : WordEdge) (ascii : Bool)
  deriving DecidableEq, Repr

/-- Whether a word edge lies between a side that is in a word or not and another. -/
def WordEdge.holds (before after : Bool) : WordEdge → Bool
  | boundary => before != after
  | inside => before == after
  | start => !before && after
  | stop => before && !after
  | startHalf => !before
  | stopHalf => !after

def isWordBeside (ascii : Bool) : Option Char → Bool
  | some c => if ascii then c.isAlphanum || c == '_' else isWord c
  | none => false

/-- Whether an anchor holds between two characters; at the ends of the text there
is none on one side. -/
def Anchor.holds (before after : Option Char) : Anchor → Bool
  | textStart => before.isNone
  | textEnd => after.isNone
  | lineStart => before.isNone || before == some '\n'
  | lineEnd => after.isNone || after == some '\n'
  | returnStart =>
    before.isNone || before == some '\n' || (before == some '\r' && after != some '\n')
  | returnEnd =>
    after.isNone || after == some '\r' || (after == some '\n' && before != some '\r')
  | word edge ascii => edge.holds (isWordBeside ascii before) (isWordBeside ascii after)

/-- The tree of a pattern, with a value at every character set. -/
inductive Node (α : Type) where
  | empty
  | chars (set : CharSet) (next : α)
  | anchor (a : Anchor)
  | seq (first second : Node α)
  /-- The first alternative is preferred. -/
  | alt (first second : Node α)
  /-- One or more times; more is preferred when `greedy`. -/
  | many (greedy : Bool) (body : Node α)
  | group (index : Nat) (body : Node α)
  /-- Passed once at most on the ways from one place. -/
  | gate (id : Nat) (body : Node α)
  deriving DecidableEq, Repr

namespace Node

variable {α : Type}

def nullable : Node α → Bool
  | empty => true
  | chars _ _ => false
  | anchor _ => true
  | seq a b => a.nullable && b.nullable
  | alt a b => a.nullable || b.nullable
  | many _ body => body.nullable
  | group _ body => body.nullable
  | gate _ body => body.nullable

def takesNothing : Node α → Bool
  | empty => true
  | chars _ _ => false
  | anchor _ => true
  | seq a b => a.takesNothing && b.takesNothing
  | alt a b => a.takesNothing && b.takesNothing
  | many _ body => body.takesNothing
  | group _ body => body.takesNothing
  | gate _ body => body.takesNothing

def size : Node α → Nat
  | empty => 1
  | chars _ _ => 1
  | anchor _ => 1
  | seq a b => a.size + b.size + 1
  | alt a b => a.size + b.size + 1
  | many _ body => body.size + 1
  | group _ body => body.size + 1
  | gate _ body => body.size + 1

def lastGroup : Node α → Nat
  | empty => 0
  | chars _ _ => 0
  | anchor _ => 0
  | seq a b => max a.lastGroup b.lastGroup
  | alt a b => max a.lastGroup b.lastGroup
  | many _ body => body.lastGroup
  | group i body => max i body.lastGroup
  | gate _ body => body.lastGroup

def hasGroup (i : Nat) : Node α → Bool
  | empty => false
  | chars _ _ => false
  | anchor _ => false
  | seq a b => a.hasGroup i || b.hasGroup i
  | alt a b => a.hasGroup i || b.hasGroup i
  | many _ body => body.hasGroup i
  | group j body => i == j || body.hasGroup i
  | gate _ body => body.hasGroup i

/-- The tree with one value at every character set. -/
def fill {β : Type} (b : β) : Node α → Node β
  | empty => empty
  | chars set _ => chars set b
  | anchor a => anchor a
  | seq x y => seq (x.fill b) (y.fill b)
  | alt x y => alt (x.fill b) (y.fill b)
  | many greedy body => many greedy (body.fill b)
  | group i body => group i (body.fill b)
  | gate id body => gate id (body.fill b)

/-! ## Building -/

def seqs : List (Node α) → Node α
  | [] => empty
  | [x] => x
  | x :: xs => seq x (seqs xs)

def alts : List (Node α) → Node α
  | [] => empty
  | [x] => x
  | x :: xs => alt x (alts xs)

def optional (greedy : Bool) (x : Node α) : Node α :=
  if greedy then alt x empty else alt empty x

/-- Up to `n` times, each time only after the one before. -/
def upTo (greedy : Bool) (x : Node α) : Nat → Node α
  | 0 => empty
  | 1 => optional greedy x
  | n + 1 => optional greedy (seq x (upTo greedy x n))

def times (x : Node α) (last : Node α) : Nat → Node α
  | 0 => last
  | n + 1 => seq x (times x last n)

def atLeast (greedy : Bool) (x : Node α) : Nat → Node α
  | 0 => optional greedy (many greedy x)
  | n + 1 => times x (many greedy x) n

/-- Between `low` and `high` times, both included.  What takes no character is
matched once at most. -/
def repeated (greedy : Bool) (low : Nat) (high : Option Nat) (x : Node α) : Node α :=
  let low := if x.takesNothing then min low 1 else low
  let high := if x.takesNothing then some (min (high.getD 1) 1) else high
  match high with
  | none => atLeast greedy x low
  | some 0 => empty
  | some high =>
    if low = high then times x x (low - 1)
    else if low = 0 then upTo greedy x high
    else times x (upTo greedy x (high - low)) low

/-! ## Gates -/

/-- Puts gates before the alternatives that lead to one place in two ways: those of which both
sides may match nothing, and those within a repetition whose body may match
nothing.  `inside` says whether such a repetition is around; gates are numbered from
`n` on, and the next free number is returned. -/
def addGates (inside : Bool) (n : Nat) : Node α → Node α × Nat
  | empty => (empty, n)
  | chars set v => (chars set v, n)
  | anchor a => (anchor a, n)
  | seq a b =>
    let (a, n) := a.addGates inside n
    let (b, n) := b.addGates inside n
    (seq a b, n)
  | alt a b =>
    let (a, n) := a.addGates inside n
    let (b, n) := b.addGates inside n
    if inside || (a.nullable && b.nullable) then (gate n (alt a b), n + 1) else (alt a b, n)
  | many greedy body =>
    let (b, n) := body.addGates (inside || body.nullable) n
    (many greedy b, n)
  | group i body =>
    let (b, n) := body.addGates inside n
    (group i b, n)
  | gate id body =>
    let (b, n) := body.addGates inside n
    (gate id b, n)

def gated (x : Node α) : Node α := (x.addGates false 0).1

end Node

/-- A pattern: its tree and the names of its groups, from group 1 on. -/
structure Pattern where
  root : Node Unit
  names : List (Option String)
  deriving DecidableEq, Repr

end Stencil
