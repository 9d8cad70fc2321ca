import Stencil.Text.Offset

/-!
# Lines and columns

* `Position`: a line and a column, both counted from 1; columns count
  characters.
* `Position.ofOffset`: the position of a byte offset.
-/

namespace Stencil.Text

/-- A place in a text as its reader counts: lines and columns start at 1. -/
structure Position where
  line : Nat
  column : Nat
  deriving DecidableEq, Repr

namespace Position

def start : Position := ⟨1, 1⟩

def advance (p : Position) (c : Char) : Position :=
  if c = '\n' then ⟨p.line + 1, 1⟩ else ⟨p.line, p.column + 1⟩

def after (cs : List Char) : Position := cs.foldl advance start

end Position

/-- The text before an offset: all of it when the offset lies past the end, and
nothing known when the offset lies inside a character. -/
def before? : Nat → List Char → Option (List Char)
  | 0, _ => some []
  | _ + 1, [] => some []
  | n + 1, c :: cs =>
    if c.utf8Size ≤ n + 1 then (before? (n + 1 - c.utf8Size) cs).map (c :: ·) else none

/-- The position of an offset.  An offset past the end or inside a character
stands for the end of the text. -/
def Position.ofOffset (source : String) (offset : Nat) : Position :=
  .after ((before? offset source.toList).getD source.toList)

end Stencil.Text
