/-!
# Places in YAML documents

* `Yaml.Cursor`: a place in the text, with its line and column.
* `Yaml.Gap`: the blanks and line ends between two words, which fold.
-/

namespace Stencil

inductive YamlFault where
  | controlCharacter (c : Char)
  | unexpected (c : Char)
  | colonMissing
  | entryNotAllowed
  | keyNotAllowed
  | valueNotAllowed
  | quoteUnclosed
  | documentInQuotes
  | escapeUnknown (c : Char)
  | escapeInvalid
  | indentationZero
  | headerInvalid
  | tabInIndentation
  | colonInFlow
  | contentMissing
  | entryMissing
  | keyMissing
  | separatorMissing
  | severalDocuments
  | keyNotScalar
  | numberTooLarge
  | nestedTooDeep
  deriving DecidableEq, Repr

namespace Yaml

/-! ## Characters -/

def isBlank (c : Char) : Bool := c == ' ' || c == '\t'

/-- Whether a character ends a line; the other line ends were replaced by line feeds. -/
def isBreak (c : Char) : Bool := c == '\n' || c == '\u2028' || c == '\u2029'

def atBlank : List Char → Bool
  | [] => true
  | c :: _ => isBlank c || isBreak c

def isFlowIndicator (c : Char) : Bool :=
  c == ',' || c == '[' || c == ']' || c == '\x7b' || c == '\x7d'

def isAllowed (c : Char) : Bool :=
  let n := c.toNat
  n == 9 || n == 10 || n == 13 || (0x20 ≤ n && n ≤ 0x7E) || n == 0x85 ||
    (0xA0 ≤ n && n ≤ 0xFFFD && n != 0xFEFF) || 0x10000 ≤ n

/-- The text with line feeds for the line ends that mean the same. -/
def unifyBreaks : List Char → List Char
  | [] => []
  | '\r' :: '\n' :: cs => '\n' :: unifyBreaks cs
  | c :: cs => (if c == '\r' || c == '\u0085' then '\n' else c) :: unifyBreaks cs

/-! ## Places -/

/-- A place in the text, with the text from there on. -/
structure Cursor where
  rest : List Char
  index : Nat := 0
  line : Nat := 0
  column : Nat := 0

namespace Cursor

def skip (c : Cursor) : Cursor :=
  match c.rest with
  | [] => c
  | x :: rest =>
    if isBreak x then ⟨rest, c.index + 1, c.line + 1, 0⟩
    else ⟨rest, c.index + 1, c.line, c.column + 1⟩

def skips (c : Cursor) : Nat → Cursor
  | 0 => c
  | n + 1 => c.skip.skips n

def skipWhile (test : Char → Bool) (c : Cursor) : Cursor :=
  c.skips (c.rest.takeWhile test).length

def atDocumentMark (c : Cursor) : Bool :=
  c.column == 0 && (['-', '-', '-'].isPrefixOf c.rest || ['.', '.', '.'].isPrefixOf c.rest) &&
    atBlank (c.rest.drop 3)

end Cursor

/-! ## Blanks within scalars -/

/-- Blanks and line ends between two words of a scalar. -/
structure Gap where
  /-- The blanks, the last one first; those after a line end do not count. -/
  blanks : List Char := []
  first : Option Char := none
  others : List Char := []
  broken : Bool := false

namespace Gap

/-- What a gap stands for in a scalar: one line end folds into a space. -/
def text (g : Gap) : List Char :=
  if g.broken then
    match g.first with
    | some '\n' => if g.others.isEmpty then [' '] else g.others.reverse
    | some c => c :: g.others.reverse
    | none => g.others.reverse
  else g.blanks.reverse

def addBlank (g : Gap) (c : Char) : Gap :=
  if g.broken then g else { g with blanks := c :: g.blanks }

def addBreak (g : Gap) (c : Char) : Gap :=
  if g.broken then { g with others := c :: g.others }
  else { g with blanks := [], first := some c, broken := true }

end Gap

/-- Reads blanks and line ends.  After a line end no tab may stand before the column
`least`. -/
def readGap (least : Int) (g : Gap) : Nat → Cursor → Except YamlFault (Gap × Cursor)
  | 0, c => .ok (g, c)
  | fuel + 1, c =>
    match c.rest with
    | [] => .ok (g, c)
    | x :: _ =>
      if isBreak x then readGap least (g.addBreak x) fuel c.skip
      else if isBlank x then
        if g.broken && c.column < least && x == '\t' then .error .tabInIndentation
        else readGap least (g.addBlank x) fuel c.skip
      else .ok (g, c)

end Yaml

end Stencil
