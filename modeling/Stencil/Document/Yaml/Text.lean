import Stencil.Document.Yaml.Cursor
import Stencil.Text.Digit

/-!
# Texts of YAML scalars

* `Yaml.readPlain`: plain scalars.
* `Yaml.readQuoted`: scalars within quotes.
* `Yaml.readBlock`: block scalars, whose lines are kept or folded.
-/

namespace Stencil.Yaml

open Text

/-! ## Plain scalars -/

/-- Reads a word of a plain scalar; `taken` holds the characters before it, the last one
first. -/
def readWord (flow : Bool) (taken : List Char) :
    List Char → Except YamlFault (List Char × Nat)
  | [] => .ok (taken, 0)
  | x :: rest =>
    if isBlank x || isBreak x then .ok (taken, 0)
    else if flow && x == ':' && rest.head?.any fun y => isFlowIndicator y || y == '?' then
      .error .colonInFlow
    else if (x == ':' && atBlank rest) || (flow && isFlowIndicator x) then .ok (taken, 0)
    else (readWord flow (x :: taken) rest).map fun (taken, n) => (taken, n + 1)

/-- Reads a plain scalar; its lines are indented beyond `indent`.  Returns the
characters, the last one first, and whether a line ended after it. -/
def readPlain (flow : Bool) (indent : Int) (taken : List Char) (g : Gap) :
    Nat → Cursor → Except YamlFault (List Char × Bool × Cursor)
  | 0, c => .ok (taken, g.broken, c)
  | fuel + 1, c =>
    if c.atDocumentMark || c.rest.head? == some '#' then .ok (taken, g.broken, c)
    else
      match readWord flow (g.text.reverse ++ taken) c.rest with
      | .error e => .error e
      | .ok (_, 0) => .ok (taken, g.broken, c)
      | .ok (taken, n + 1) =>
        let c := c.skips (n + 1)
        match readGap (indent + 1) {} (c.rest.length + 1) c with
        | .error e => .error e
        | .ok (g, next) =>
          if next.index == c.index then .ok (taken, false, c)
          else if !flow && next.column < indent + 1 then .ok (taken, g.broken, next)
          else readPlain flow indent taken g fuel next

/-! ## Quoted scalars -/

def simpleEscape? : Char → Option Char
  | '0' => some '\x00'
  | 'a' => some '\x07'
  | 'b' => some '\x08'
  | 't' => some '\t'
  | '\t' => some '\t'
  | 'n' => some '\n'
  | 'v' => some '\x0b'
  | 'f' => some '\x0c'
  | 'r' => some '\r'
  | 'e' => some '\x1b'
  | ' ' => some ' '
  | '"' => some '"'
  | '/' => some '/'
  | '\\' => some '\\'
  | 'N' => some '\u0085'
  | '_' => some '\u00a0'
  | 'L' => some '\u2028'
  | 'P' => some '\u2029'
  | _ => none

def escapeDigits? : Char → Option Nat
  | 'x' => some 2
  | 'u' => some 4
  | 'U' => some 8
  | _ => none

/-- The character of an escape, from after its backslash on, and the length of the
escape. -/
def readEscape : List Char → Except YamlFault (Char × Nat)
  | [] => .error .quoteUnclosed
  | c :: cs =>
    match simpleEscape? c, escapeDigits? c with
    | some d, _ => .ok (d, 1)
    | none, some digits =>
      match hexChar? digits cs with
      | some d => .ok (d, digits + 1)
      | none => .error .escapeInvalid
    | none, none => .error (.escapeUnknown c)

/-- Reads a quoted scalar from after its opening quote on; `taken` holds the characters
before, the last one first.  A gap just read is given, if there is one. -/
def readQuoted (single : Bool) (taken : List Char) :
    Nat → Cursor → Except YamlFault (List Char × Cursor)
  | 0, _ => .error .quoteUnclosed
  | fuel + 1, c =>
    let quote := if single then '\'' else '"'
    if c.atDocumentMark then .error .documentInQuotes
    else
      match c.rest with
      | [] => .error .quoteUnclosed
      | x :: rest =>
        if single && x == quote && rest.head? == some quote then
          readQuoted single (quote :: taken) fuel (c.skips 2)
        else if x == quote then .ok (taken, c.skip)
        else if isBlank x || isBreak x then
          match readGap 0 {} (c.rest.length + 1) c with
          | .error e => .error e
          | .ok (g, c) => readQuoted single (g.text.reverse ++ taken) fuel c
        else if !single && x == '\\' then
          if rest.head?.any isBreak then
            match readGap 0 { broken := true } (c.rest.length + 1) (c.skips 2) with
            | .error e => .error e
            | .ok (g, c) => readQuoted single (g.text.reverse ++ taken) fuel c
          else
            match readEscape rest with
            | .error e => .error e
            | .ok (d, n) => readQuoted single (d :: taken) fuel (c.skips (n + 1))
        else readQuoted single (x :: taken) fuel c.skip

/-! ## Block scalars -/

/-- What happens to the line ends at the end of a block scalar. -/
inductive Chomp where
  | strip | clip | keep
  deriving DecidableEq, Repr

def chomp? : Char → Option Chomp
  | '-' => some .strip
  | '+' => some .keep
  | _ => none

/-- Reads what follows the sign of a block scalar: how its end is treated and how far it
is indented, in either order. -/
def readHeader (c : Cursor) : Except YamlFault (Chomp × Nat × Cursor) :=
  let digit? (x : Char) : Option Nat := if x.isDigit then some (x.toNat - 48) else none
  match c.rest with
  | [] => .ok (.clip, 0, c)
  | x :: rest =>
    match chomp? x, digit? x with
    | some chomp, _ =>
      match rest.head?.bind digit? with
      | some 0 => .error .indentationZero
      | some n => .ok (chomp, n, c.skips 2)
      | none => .ok (chomp, 0, c.skip)
    | none, some 0 => .error .indentationZero
    | none, some n =>
      match rest.head?.bind chomp? with
      | some chomp => .ok (chomp, n, c.skips 2)
      | none => .ok (.clip, n, c.skip)
    | none, none => .ok (.clip, 0, c)

/-- Reads the indentation of a line of a block scalar and empty lines before it.
`indent` is 0 while it is not known.  Returns the line ends, the last one first, and the
greatest column that was reached. -/
def readIndentation (indent widest : Nat) (breaks : List Char) :
    Nat → Cursor → Except YamlFault (List Char × Nat × Cursor)
  | 0, c => .ok (breaks, widest, c)
  | fuel + 1, c =>
    let spaces := (c.rest.takeWhile (· == ' ')).length
    let c := c.skips (if indent = 0 then spaces else min spaces (indent - c.column))
    let widest := max widest c.column
    match c.rest with
    | [] => .ok (breaks, widest, c)
    | x :: _ =>
      if x == '\t' && (indent = 0 || c.column < indent) then .error .tabInIndentation
      else if isBreak x then readIndentation indent widest (x :: breaks) fuel c.skip
      else .ok (breaks, widest, c)

/-- What was read of a block scalar. -/
structure BlockText where
  /-- The characters, the last one first. -/
  taken : List Char := []
  lineEnd : List Char := []
  /-- The line ends of empty lines after it, the last one first. -/
  empties : List Char := []
  afterBlank : Bool := false

def readLines (folded : Bool) (indent : Nat) (t : BlockText) :
    Nat → Cursor → Except YamlFault (BlockText × Cursor)
  | 0, c => .ok (t, c)
  | fuel + 1, c =>
    if c.column != indent || c.rest.isEmpty then .ok (t, c)
    else
      let blank := c.rest.head?.any isBlank
      let joint : List Char :=
        if folded && t.lineEnd == ['\n'] && !t.afterBlank && !blank then
          if t.empties.isEmpty then [' '] else []
        else t.lineEnd
      let line := c.rest.takeWhile fun x => !isBreak x
      let taken := line.reverse ++ (t.empties ++ (joint ++ t.taken))
      let c := c.skips line.length
      let lineEnd := c.rest.take 1
      match readIndentation indent 0 [] (c.rest.length + 1) c.skip with
      | .error e => .error e
      | .ok (empties, _, c) => readLines folded indent ⟨taken, lineEnd, empties, blank⟩ fuel c

/-- Reads a block scalar from after its sign on; `outer` is the indentation around it. -/
def readBlock (folded : Bool) (outer : Int) (c : Cursor) :
    Except YamlFault (List Char × Cursor) :=
  match readHeader c with
  | .error e => .error e
  | .ok (chomp, increment, c) =>
    let c := c.skipWhile isBlank
    let c := if c.rest.head? == some '#' then c.skipWhile (fun x => !isBreak x) else c
    if !c.rest.isEmpty && !c.rest.head?.any isBreak then .error .headerInvalid
    else
      let c := c.skip
      let known := if increment = 0 then 0 else (max outer 0).toNat + increment
      match readIndentation known 0 [] (c.rest.length + 1) c with
      | .error e => .error e
      | .ok (empties, widest, c) =>
        let indent := if known = 0 then max (max widest (outer + 1).toNat) 1 else known
        match readLines folded indent { empties } (c.rest.length + 1) c with
        | .error e => .error e
        | .ok (t, c) =>
          let taken := if chomp == .strip then t.taken else t.lineEnd ++ t.taken
          .ok (if chomp == .keep then t.empties ++ taken else taken, c)

end Stencil.Yaml
