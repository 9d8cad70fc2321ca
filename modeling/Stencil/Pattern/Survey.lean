import Stencil.Pattern.Basic
import Stencil.Text.Offset

/-!
# Surveying a text

A pattern is matched against all places of a text in one pass from the end to the
start.  At each place the pass knows, for every character set of the pattern, how
the match ends that goes on after a character of the set; from these it finds the
preferred match that starts at the place, and what the sets one place earlier
need.  No gate is passed twice on the ways from one place, so the work at a place is
bounded by the pattern alone.

* `Place`, `places`: the places of a text.
* `Finish`: how a match goes on from a place to its end.
* `Onward`: the ways on from a place, which avoid the gates passed there.
* `Node.enter`: the preferred way from a place through a node and on.
* `Node.charge`: what follows each character set at a place.
* `Pattern.survey`: every place of a text, with the preferred match there.
-/

namespace Stencil

structure Place where
  offset : Nat
  before : Option Char
  after : Option Char
  deriving DecidableEq, Repr

def placesFrom (offset : Nat) (before : Option Char) : List Char → List Place
  | [] => [⟨offset, before, none⟩]
  | c :: cs => ⟨offset, before, some c⟩ :: placesFrom (offset + c.utf8Size) (some c) cs

def places (text : List Char) : List Place := placesFrom 0 none text

structure Mark where
  group : Nat
  closes : Bool
  offset : Nat
  deriving DecidableEq, Repr

/-- How a match goes on from a place: where it ends, and the groups it opens and
closes on the way, in order. -/
structure Finish where
  stop : Nat
  marks : List Mark
  deriving DecidableEq, Repr

def Finish.mark (group : Nat) (closes : Bool) (offset : Nat) (f : Finish) : Finish :=
  ⟨f.stop, ⟨group, closes, offset⟩ :: f.marks⟩

/-- What follows a node at a place: given the gates passed at the place so far, the
preferred way on, and the gates passed by then. -/
abbrev Onward := List Nat → Option Finish × List Nat

namespace Onward

def stuck : Onward := fun seen => (none, seen)

/-- The first way on, or else the second one, which must avoid the gates that the first
one has passed. -/
def orElse (first second : Onward) : Onward := fun seen =>
  match first seen with
  | (some f, seen) => (some f, seen)
  | (none, seen) => second seen

def mark (group : Nat) (closes : Bool) (offset : Nat) (onward : Onward) : Onward := fun seen =>
  let (f, seen) := onward seen
  (f.map (·.mark group closes offset), seen)

def through (id : Nat) (onward : Onward) : Onward := fun seen =>
  if seen.contains id then (none, seen) else onward (id :: seen)

/-- After one round of a repetition: another round is preferred when the repetition
is greedy, going on when it is lazy. -/
def orAgain (onward : Onward) (greedy : Bool) (again : Onward) : Onward :=
  if greedy then again.orElse onward else onward.orElse again

/-- The preferred way on from a place where no gate has been passed. -/
def best (onward : Onward) : Option Finish := (onward []).1

end Onward

namespace Node

/-- The preferred way from a place through a node and on.  The node's sets hold what
follows one place later. -/
def enter (here : Place) : Node (Option Finish) → Onward → Onward
  | empty, onward => onward
  | chars set next, _ => fun seen =>
    match next, here.after with
    | some f, some c => (if set.contains c then some f else none, seen)
    | _, _ => (none, seen)
  | anchor a, onward => if a.holds here.before here.after then onward else .stuck
  | seq a b, onward => a.enter here (b.enter here onward)
  | alt a b, onward => (a.enter here onward).orElse (b.enter here onward)
  | many greedy body, onward =>
    body.enter here (onward.orAgain greedy (body.enter here .stuck))
  | group i body, onward =>
    (body.enter here (onward.mark i true here.offset)).mark i false here.offset
  | gate id body, onward => (body.enter here onward).through id

/-- The node with what follows each of its sets at a place.  The given node's sets
hold what follows one place later. -/
def charge (here : Place) : Node (Option Finish) → Onward → Node (Option Finish)
  | empty, _ => empty
  | chars set _, onward => chars set onward.best
  | anchor a, _ => anchor a
  | seq a b, onward => seq (a.charge here (b.enter here onward)) (b.charge here onward)
  | alt a b, onward => alt (a.charge here onward) (b.charge here onward)
  | many greedy body, onward =>
    many greedy (body.charge here (onward.orAgain greedy (body.enter here .stuck)))
  | group i body, onward => group i (body.charge here (onward.mark i true here.offset))
  | gate id body, onward => gate id (body.charge here onward)

end Node

structure Match where
  start : Nat
  stop : Nat
  marks : List Mark
  deriving DecidableEq, Repr

namespace Match

def isEmpty (m : Match) : Bool := m.stop == m.start

def last? (group : Nat) (closes : Bool) : List Mark → Option Nat
  | [] => none
  | m :: ms =>
    last? group closes ms <|> if m.group == group && m.closes == closes then some m.offset else none

def group? (m : Match) (i : Nat) : Option (Nat × Nat) :=
  match last? i false m.marks, last? i true m.marks with
  | some start, some stop => some (start, stop)
  | _, _ => none

end Match

structure Spot where
  offset : Nat
  found : Option Match
  deriving DecidableEq, Repr

namespace Pattern

def finishAt (here : Place) : Onward := fun seen => (some ⟨here.offset, []⟩, seen)

def surveyStep (here : Place) (later : Node (Option Finish) × List Spot) :
    Node (Option Finish) × List Spot :=
  let found := (later.1.enter here (finishAt here)).best
  (later.1.charge here (finishAt here),
    ⟨here.offset, found.map fun f => ⟨here.offset, f.stop, f.marks⟩⟩ :: later.2)

/-- Every place of a text, with the preferred match that starts there. -/
def survey (p : Pattern) (text : List Char) : List Spot :=
  ((places text).foldr surveyStep (p.root.fill none, [])).2

/-- The preferred matches of a pattern, one at most for each start, in order. -/
def occurrences (p : Pattern) (text : List Char) : List Match :=
  (p.survey text).filterMap (·.found)

end Pattern

end Stencil
