import Stencil.Document.Yaml.Text

/-!
# YAML tokens

The text of a document is divided into tokens.  Indentation opens and closes blocks;
a mapping key is recognised only at the colon after it, so the place where it may
start is remembered.

* `Yaml.Token`: a token.
* `Yaml.Lexer`: what is known at some point of the text.
* `Yaml.tokens`: the tokens of a text.
-/

namespace Stencil.Yaml

inductive Token where
  | documentStart
  | documentEnd
  | sequenceStart
  | mappingStart
  | blockEnd
  | flowSequenceStart
  | flowSequenceEnd
  | flowMappingStart
  | flowMappingEnd
  | entry
  | separator
  | key
  | value
  | scalar (text : String) (plain : Bool)
  deriving DecidableEq, Repr

/-- A place where a key may have started. -/
structure KeyPlace where
  /-- Whether only a key can stand there. -/
  required : Bool
  /-- The number of tokens before it. -/
  position : Nat
  index : Nat
  line : Nat
  column : Nat

/-- Whether a key that started at a place can no longer end at the cursor: it has to end
on the same line and within 1024 characters. -/
def KeyPlace.isStale (p : KeyPlace) (c : Cursor) : Bool :=
  p.line < c.line || p.index + 1024 < c.index

/-- What is known at some point of the text. -/
structure Lexer where
  cursor : Cursor
  tokens : Array Token := #[]
  /-- The column of the innermost block, -1 outside of all blocks. -/
  indent : Int := -1
  indents : List Int := []
  keyAllowed : Bool := true
  keyPlace : Option KeyPlace := none
  /-- Where keys may have started in the brackets and braces around, the innermost ones first. -/
  outerPlaces : List (Option KeyPlace) := []

namespace Lexer

def inFlow (l : Lexer) : Bool := !l.outerPlaces.isEmpty

def push (l : Lexer) (t : Token) : Lexer := { l with tokens := l.tokens.push t }

def skips (l : Lexer) (n : Nat) : Lexer := { l with cursor := l.cursor.skips n }

/-- Skips blanks, comments and line ends up to the next token. -/
def toNextToken : Nat → Lexer → Lexer
  | 0, l => l
  | fuel + 1, l =>
    match l.cursor.rest with
    | [] => l
    | x :: _ =>
      if x == ' ' || (x == '\t' && (l.inFlow || !l.keyAllowed)) then toNextToken fuel (l.skips 1)
      else if x == '#' then
        toNextToken fuel { l with cursor := l.cursor.skipWhile fun x => !isBreak x }
      else if isBreak x then
        toNextToken fuel { l.skips 1 with keyAllowed := l.keyAllowed || !l.inFlow }
      else l

def dropStale (c : Cursor) : Option KeyPlace → Except YamlFault (Option KeyPlace)
  | some p =>
    if p.isStale c then if p.required then .error .colonMissing else .ok none
    else .ok (some p)
  | none => .ok none

def forgetStale (l : Lexer) : Except YamlFault Lexer :=
  match dropStale l.cursor l.keyPlace, l.outerPlaces.mapM (dropStale l.cursor) with
  | .ok keyPlace, .ok outerPlaces => .ok { l with keyPlace, outerPlaces }
  | .error e, _ => .error e
  | _, .error e => .error e

def forgetKey (l : Lexer) : Except YamlFault Lexer :=
  if l.keyPlace.any (·.required) then .error .colonMissing else .ok { l with keyPlace := none }

def rememberKey (l : Lexer) : Except YamlFault Lexer :=
  if !l.keyAllowed then .ok l
  else
    let place : KeyPlace :=
      { required := !l.inFlow && l.indent == l.cursor.column, position := l.tokens.size,
        index := l.cursor.index, line := l.cursor.line, column := l.cursor.column }
    l.forgetKey.map fun l => { l with keyPlace := some place }

/-- Closes the blocks that are indented beyond a column. -/
def closeBlocks (column : Int) : Nat → Lexer → Lexer
  | 0, l => l
  | fuel + 1, l =>
    if l.inFlow || l.indent ≤ column then l
    else
      closeBlocks column fuel
        { l.push .blockEnd with indent := l.indents.headD (-1), indents := l.indents.tail }

def unindent (l : Lexer) (column : Int) : Lexer := closeBlocks column (l.indents.length + 1) l

/-- Opens a block at a column, when it is indented beyond the innermost one, by a token
at a position. -/
def indentTo (l : Lexer) (column position : Nat) (t : Token) : Lexer :=
  if l.inFlow || column ≤ l.indent then l
  else
    { l with
      indent := column, indents := l.indent :: l.indents,
      tokens := l.tokens.insertIdxIfInBounds position t }

def documentMark (l : Lexer) (t : Token) : Except YamlFault Lexer :=
  (l.unindent (-1)).forgetKey.map fun l => { (l.push t).skips 3 with keyAllowed := false }

def openFlow (l : Lexer) (t : Token) : Except YamlFault Lexer :=
  l.rememberKey.map fun l =>
    { (l.push t).skips 1 with
      keyAllowed := true, keyPlace := none, outerPlaces := l.keyPlace :: l.outerPlaces }

def closeFlow (l : Lexer) (t : Token) : Except YamlFault Lexer :=
  l.forgetKey.map fun l =>
    { (l.push t).skips 1 with
      keyAllowed := false, keyPlace := l.outerPlaces.headD none,
      outerPlaces := l.outerPlaces.tail }

def separator (l : Lexer) : Except YamlFault Lexer :=
  l.forgetKey.map fun l => { (l.push .separator).skips 1 with keyAllowed := true }

def entry (l : Lexer) : Except YamlFault Lexer :=
  if !l.inFlow && !l.keyAllowed then .error .entryNotAllowed
  else
    (l.indentTo l.cursor.column l.tokens.size .sequenceStart).forgetKey.map fun l =>
      { (l.push .entry).skips 1 with keyAllowed := true }

def explicitKey (l : Lexer) : Except YamlFault Lexer :=
  if !l.inFlow && !l.keyAllowed then .error .keyNotAllowed
  else
    (l.indentTo l.cursor.column l.tokens.size .mappingStart).forgetKey.map fun l =>
      { (l.push .key).skips 1 with keyAllowed := !l.inFlow }

/-- A colon before a value.  A key that may have started on this line did. -/
def value (l : Lexer) : Except YamlFault Lexer :=
  match l.keyPlace with
  | some p =>
    let l := { l with tokens := l.tokens.insertIdxIfInBounds p.position .key, keyPlace := none }
    let l := l.indentTo p.column p.position .mappingStart
    .ok { (l.push .value).skips 1 with keyAllowed := false }
  | none =>
    if !l.inFlow && !l.keyAllowed then .error .valueNotAllowed
    else
      let l := l.indentTo l.cursor.column l.tokens.size .mappingStart
      .ok { (l.push .value).skips 1 with keyAllowed := !l.inFlow }

def blockScalar (l : Lexer) (folded : Bool) : Except YamlFault Lexer :=
  l.forgetKey.bind fun l =>
    (readBlock folded l.indent l.cursor.skip).map fun (taken, cursor) =>
      { l.push (.scalar (String.ofList taken.reverse) false) with cursor, keyAllowed := true }

def quotedScalar (l : Lexer) (single : Bool) : Except YamlFault Lexer :=
  l.rememberKey.bind fun l =>
    (readQuoted single [] (l.cursor.rest.length + 1) l.cursor.skip).map fun (taken, cursor) =>
      { l.push (.scalar (String.ofList taken.reverse) false) with cursor, keyAllowed := false }

def plainScalar (l : Lexer) : Except YamlFault Lexer :=
  l.rememberKey.bind fun l =>
    (readPlain l.inFlow l.indent [] {} (l.cursor.rest.length + 1) l.cursor).map
      fun (taken, broken, cursor) =>
        { l.push (.scalar (String.ofList taken.reverse) true) with cursor, keyAllowed := broken }

def startsPlain (flow : Bool) (x : Char) (rest : List Char) : Bool :=
  if x == '-' then !rest.head?.any isBlank
  else if x == '?' || x == ':' then !flow && !atBlank rest
  else !(isBlank x || isBreak x || isFlowIndicator x ||
    ['#', '&', '*', '!', '|', '>', '\'', '"', '%', '@', '\x60'].contains x)

/-- The next token; `x` is the first character of the text from the cursor on. -/
def token (l : Lexer) (x : Char) (rest : List Char) : Except YamlFault Lexer :=
  if l.cursor.atDocumentMark then
    l.documentMark (if x == '-' then .documentStart else .documentEnd)
  else
    match x with
    | '[' => l.openFlow .flowSequenceStart
    | '\x7b' => l.openFlow .flowMappingStart
    | ']' => l.closeFlow .flowSequenceEnd
    | '\x7d' => l.closeFlow .flowMappingEnd
    | ',' => l.separator
    | '\'' => l.quotedScalar true
    | '"' => l.quotedScalar false
    | _ =>
      if x == '-' && atBlank rest then l.entry
      else if x == '?' && (l.inFlow || atBlank rest) then l.explicitKey
      else if x == ':' && (l.inFlow || atBlank rest) then l.value
      else if (x == '|' || x == '>') && !l.inFlow then l.blockScalar (x == '>')
      else if x == '%' && l.cursor.column == 0 then .error (.unexpected x)
      else if startsPlain l.inFlow x rest then l.plainScalar
      else .error (.unexpected x)

def run : Nat → Lexer → Except YamlFault (List Token)
  | 0, l => .ok l.tokens.toList
  | fuel + 1, l =>
    match (l.toNextToken (l.cursor.rest.length + 1)).forgetStale with
    | .error e => .error e
    | .ok l =>
      let l := l.unindent l.cursor.column
      match l.cursor.rest with
      | [] => (l.unindent (-1)).forgetKey.map (·.tokens.toList)
      | x :: rest =>
        match l.token x rest with
        | .ok l => run fuel l
        | .error e => .error e

end Lexer

def tokens (text : String) : Except YamlFault (List Token) :=
  let cs : List Char :=
    match text.toList with
    | '\ufeff' :: cs => cs
    | cs => cs
  match cs.find? fun c => !isAllowed c with
  | some c => .error (.controlCharacter c)
  | none =>
    let cs := unifyBreaks cs
    Lexer.run (cs.length + 1) { cursor := { rest := cs } }

end Stencil.Yaml
