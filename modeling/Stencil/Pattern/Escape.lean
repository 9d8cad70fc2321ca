import Stencil.Pattern.Basic
import Stencil.Pattern.Fault
import Stencil.Text.Digit

/-!
# Flags, blanks and escapes of patterns

* `Flags`: what the flags in force say.
* `skipBlanks`: white space and comments between the parts of a verbose pattern.
* `property?`: the character properties that have a name.
* `readEscape`: what follows a backslash.
-/

namespace Stencil

open Text

/-- The flags in force at some point of a pattern. -/
structure Flags where
  ignoreCase : Bool := false
  multiLine : Bool := false
  dotAll : Bool := false
  /-- Repetitions are lazy, and greedy with a question mark. -/
  swapGreed : Bool := false
  /-- Carriage returns end lines. -/
  crlf : Bool := false
  verbose : Bool := false
  unicode : Bool := true
  deriving DecidableEq, Repr

namespace Pattern

/-- Skips white space and comments; `comment` says whether a comment goes on. -/
def skipComments (comment : Bool) : List Char → List Char
  | [] => []
  | c :: cs =>
    if comment then skipComments (c != '\n') cs
    else if isBlank c then skipComments false cs
    else if c == '#' then skipComments true cs
    else c :: cs

def skipBlanks (flags : Flags) (cs : List Char) : List Char :=
  if flags.verbose then skipComments false cs else cs

/-! ## Sets with a name -/

/-- The set under the flags: closed under case, if case is ignored. -/
def caseClosed (flags : Flags) (s : CharSet) : CharSet :=
  if flags.ignoreCase then
    if flags.unicode then .folded s else .union s (.inter (.folded s) (.range '\x00' '\x7f'))
  else s

def negatedIf (negated : Bool) (s : CharSet) : CharSet := if negated then .compl s else s

def literalSet (flags : Flags) (c : Char) : CharSet :=
  if flags.unicode || c.toNat < 128 then caseClosed flags (.single c) else .single c

def asciiRanges (ranges : List (Char × Char)) : CharSet :=
  .unions (ranges.map fun (a, b) => .range a b)

def shorthandSet (flags : Flags) : Char → CharSet
  | 'd' => if flags.unicode then .decimal else .range '0' '9'
  | 's' => if flags.unicode then .blank else asciiRanges [('\t', '\r'), (' ', ' ')]
  | _ =>
    if flags.unicode then .word
    else asciiRanges [('0', '9'), ('A', 'Z'), ('_', '_'), ('a', 'z')]

def asciiClass? : String → Option CharSet
  | "alnum" => some (asciiRanges [('0', '9'), ('A', 'Z'), ('a', 'z')])
  | "alpha" => some (asciiRanges [('A', 'Z'), ('a', 'z')])
  | "ascii" => some (asciiRanges [('\x00', '\x7f')])
  | "blank" => some (asciiRanges [('\t', '\t'), (' ', ' ')])
  | "cntrl" => some (asciiRanges [('\x00', '\x1f'), ('\x7f', '\x7f')])
  | "digit" => some (asciiRanges [('0', '9')])
  | "graph" => some (asciiRanges [('!', '~')])
  | "lower" => some (asciiRanges [('a', 'z')])
  | "print" => some (asciiRanges [(' ', '~')])
  | "punct" => some (asciiRanges [('!', '/'), (':', '@'), ('[', '\x60'), ('\x7b', '~')])
  | "space" => some (asciiRanges [('\t', '\r'), (' ', ' ')])
  | "upper" => some (asciiRanges [('A', 'Z')])
  | "word" => some (asciiRanges [('0', '9'), ('A', 'Z'), ('_', '_'), ('a', 'z')])
  | "xdigit" => some (asciiRanges [('0', '9'), ('A', 'F'), ('a', 'f')])
  | _ => none

/-- A property name without case, blanks, hyphens and underscores, and without the
`is` it may start with. -/
def normalName (name : List Char) : String :=
  let body : List Char :=
    match name with
    | i :: s :: rest => if i.toLower == 'i' && s.toLower == 's' then rest else name
    | _ => name
  let kept := (body.filter fun c => c.toNat < 128 && c != ' ' && c != '_' && c != '-').map
    Char.toLower
  if body.length < name.length && kept == ['c'] then "isc" else String.ofList kept

def categoryNames : List (String × CharSet) :=
  [("l", .major 'L'), ("letter", .major 'L'),
   ("lc", .unions [.category .uppercaseLetter, .category .lowercaseLetter,
     .category .titlecaseLetter]),
   ("casedletter", .unions [.category .uppercaseLetter, .category .lowercaseLetter,
     .category .titlecaseLetter]),
   ("lu", .category .uppercaseLetter), ("uppercaseletter", .category .uppercaseLetter),
   ("ll", .category .lowercaseLetter), ("lowercaseletter", .category .lowercaseLetter),
   ("lt", .category .titlecaseLetter), ("titlecaseletter", .category .titlecaseLetter),
   ("lm", .category .modifierLetter), ("modifierletter", .category .modifierLetter),
   ("lo", .category .otherLetter), ("otherletter", .category .otherLetter),
   ("m", .major 'M'), ("mark", .major 'M'), ("combiningmark", .major 'M'),
   ("mn", .category .nonspacingMark), ("nonspacingmark", .category .nonspacingMark),
   ("mc", .category .spacingMark), ("spacingmark", .category .spacingMark),
   ("me", .category .enclosingMark), ("enclosingmark", .category .enclosingMark),
   ("n", .major 'N'), ("number", .major 'N'),
   ("nd", .category .decimalNumber), ("decimalnumber", .category .decimalNumber),
   ("digit", .category .decimalNumber),
   ("nl", .category .letterNumber), ("letternumber", .category .letterNumber),
   ("no", .category .otherNumber), ("othernumber", .category .otherNumber),
   ("p", .major 'P'), ("punctuation", .major 'P'), ("punct", .major 'P'),
   ("pc", .category .connectorPunctuation),
   ("connectorpunctuation", .category .connectorPunctuation),
   ("pd", .category .dashPunctuation), ("dashpunctuation", .category .dashPunctuation),
   ("ps", .category .openPunctuation), ("openpunctuation", .category .openPunctuation),
   ("pe", .category .closePunctuation), ("closepunctuation", .category .closePunctuation),
   ("pi", .category .initialPunctuation),
   ("initialpunctuation", .category .initialPunctuation),
   ("pf", .category .finalPunctuation), ("finalpunctuation", .category .finalPunctuation),
   ("po", .category .otherPunctuation), ("otherpunctuation", .category .otherPunctuation),
   ("s", .major 'S'), ("symbol", .major 'S'),
   ("sm", .category .mathSymbol), ("mathsymbol", .category .mathSymbol),
   ("sc", .category .currencySymbol), ("currencysymbol", .category .currencySymbol),
   ("sk", .category .modifierSymbol), ("modifiersymbol", .category .modifierSymbol),
   ("so", .category .otherSymbol), ("othersymbol", .category .otherSymbol),
   ("z", .major 'Z'), ("separator", .major 'Z'),
   ("zs", .category .spaceSeparator), ("spaceseparator", .category .spaceSeparator),
   ("zl", .category .lineSeparator), ("lineseparator", .category .lineSeparator),
   ("zp", .category .paragraphSeparator),
   ("paragraphseparator", .category .paragraphSeparator),
   ("c", .major 'C'), ("other", .major 'C'),
   ("cc", .category .control), ("control", .category .control), ("cntrl", .category .control),
   ("cf", .category .format), ("format", .category .format),
   ("co", .category .privateUse), ("privateuse", .category .privateUse),
   ("cn", .category .unassigned), ("unassigned", .category .unassigned),
   ("any", .any), ("assigned", .compl (.category .unassigned)), ("ascii", .range '\x00' '\x7f')]

def propertyNames : List (String × CharSet) :=
  [("alphabetic", .alphabetic), ("alpha", .alphabetic),
   ("whitespace", .blank), ("wspace", .blank), ("space", .blank)]

/-- The set of a property: a bare name, or the name of a general category after the
name of that property. -/
def property? (name : List Char) : Option CharSet :=
  let (key, value) := name.span fun c => c != '=' && c != ':'
  match value with
  | [] =>
    let n := normalName name
    (propertyNames.lookup n).or (categoryNames.lookup n)
  | _ :: value =>
    if normalName key == "gc" || normalName key == "generalcategory" then
      categoryNames.lookup (normalName value)
    else none

/-! ## Escapes -/

inductive Atom where
  | char (c : Char)
  | set (s : CharSet)
  | anchor (a : Anchor)
  deriving DecidableEq, Repr

abbrev Reading (α : Type) := Except PatternFault (α × List Char)

def charOf (n : Nat) : Except PatternFault Char :=
  match charAt? n with
  | some c => .ok c
  | none => .error .codePointInvalid

def readHexDigits (flags : Flags) (value : Nat) : Nat → List Char → Reading Atom
  | 0, cs => (charOf value).map fun c => (.char c, cs)
  | _ + 1, [] => .error .escapeUnfinished
  | n + 1, c :: cs =>
    match digitIn? 16 c with
    | some d => readHexDigits flags (16 * value + d) n (skipBlanks flags cs)
    | none => .error (.digitInvalid c)

def readHexBraced (flags : Flags) (value : Nat) (empty : Bool) : Nat → List Char → Reading Atom
  | 0, _ => .error .escapeUnfinished
  | fuel + 1, cs =>
    match skipBlanks flags cs with
    | [] => .error .escapeUnfinished
    | '\x7d' :: cs =>
      if empty then .error .codePointInvalid
      else (charOf value).map fun c => (.char c, skipBlanks flags cs)
    | c :: cs =>
      match digitIn? 16 c with
      | some d => readHexBraced flags (16 * value + d) false fuel cs
      | none => .error (.digitInvalid c)

/-- The character of a byte that is written with two digits.  Where classes cover ASCII
only, a greater byte is but part of a character. -/
def wholeCharacter (flags : Flags) : Atom × List Char → Reading Atom
  | (.char c, cs) =>
    if flags.unicode || c.toNat < 128 then .ok (.char c, cs) else .error .splitsCharacters
  | other => .ok other

/-- Reads a code point: so many digits, or any number in braces. -/
def readHex (flags : Flags) (digits : Nat) (cs : List Char) : Reading Atom :=
  match skipBlanks flags cs with
  | [] => .error .escapeUnfinished
  | '\x7b' :: cs => readHexBraced flags 0 true (cs.length + 1) cs
  | cs =>
    if digits = 2 then (readHexDigits flags 0 2 cs).bind (wholeCharacter flags)
    else readHexDigits flags 0 digits cs

def readBraced (flags : Flags) (name : List Char) : Nat → List Char → Reading (List Char)
  | 0, _ => .error .escapeUnfinished
  | fuel + 1, cs =>
    match skipBlanks flags cs with
    | [] => .error .escapeUnfinished
    | '\x7d' :: cs => .ok (name.reverse, cs)
    | c :: cs => readBraced flags (c :: name) fuel cs

def readProperty (flags : Flags) (negated : Bool) (cs : List Char) : Reading Atom :=
  let name : Reading (List Char) :=
    match skipBlanks flags cs with
    | [] => .error .escapeUnfinished
    | '\x7b' :: cs => readBraced flags [] (cs.length + 1) cs
    | c :: cs => .ok ([c], skipBlanks flags cs)
  name.bind fun (name, rest) =>
    if !flags.unicode then .error .splitsCharacters
    else
      match property? name with
      | some s => .ok (.set (negatedIf negated (caseClosed flags s)), rest)
      | none => .error (.propertyUnknown (String.ofList name))

def wordEdge? : String → Option WordEdge
  | "start" => some .start
  | "end" => some .stop
  | "start-half" => some .startHalf
  | "end-half" => some .stopHalf
  | _ => none

def readEdgeName (flags : Flags) (name : List Char) : Nat → List Char → List Char × List Char
  | 0, cs => (name.reverse, cs)
  | fuel + 1, cs =>
    match cs with
    | [] => (name.reverse, [])
    | c :: rest =>
      if c.isAlpha || c == '-' then readEdgeName flags (c :: name) fuel (skipBlanks flags rest)
      else (name.reverse, cs)

/-- Reads what may follow `\b`: the name of a word edge in braces.  Braces that hold
no name belong to a repetition. -/
def readWordEdge (flags : Flags) (cs : List Char) : Reading Atom :=
  match cs with
  | '\x7b' :: rest =>
    match skipBlanks flags rest with
    | [] => .error .countUnclosed
    | c :: more =>
      if c.isAlpha || c == '-' then
        match readEdgeName flags [] (more.length + 2) (c :: more) with
        | (name, '\x7d' :: rest) =>
          match wordEdge? (String.ofList name) with
          | some edge => .ok (.anchor (.word edge (!flags.unicode)), rest)
          | none => .error (.wordEdgeUnknown (String.ofList name))
        | _ => .error .wordEdgeUnclosed
      else .ok (.anchor (.word .boundary (!flags.unicode)), cs)
  | _ => .ok (.anchor (.word .boundary (!flags.unicode)), cs)

/-- Whether a backslash before this character stands for the character itself. -/
def isEscapable (c : Char) : Bool :=
  c.toNat < 128 && !c.isAlphanum && c != '<' && c != '>'

def readEscape (flags : Flags) : List Char → Reading Atom
  | [] => .error .escapeUnfinished
  | c :: cs =>
    match c with
    | 'x' => readHex flags 2 cs
    | 'u' => readHex flags 4 cs
    | 'U' => readHex flags 8 cs
    | 'p' => readProperty flags false cs
    | 'P' => readProperty flags true cs
    | 'd' | 's' | 'w' => .ok (.set (shorthandSet flags c), cs)
    | 'D' | 'S' | 'W' =>
      if flags.unicode then .ok (.set (.compl (shorthandSet flags c.toLower)), cs)
      else .error .splitsCharacters
    | 'a' => .ok (.char '\x07', cs)
    | 'f' => .ok (.char '\x0c', cs)
    | 't' => .ok (.char '\t', cs)
    | 'n' => .ok (.char '\n', cs)
    | 'r' => .ok (.char '\r', cs)
    | 'v' => .ok (.char '\x0b', cs)
    | 'A' => .ok (.anchor .textStart, cs)
    | 'z' => .ok (.anchor .textEnd, cs)
    | 'b' => readWordEdge flags cs
    | 'B' => .ok (.anchor (.word .inside (!flags.unicode)), cs)
    | '<' => .ok (.anchor (.word .start (!flags.unicode)), cs)
    | '>' => .ok (.anchor (.word .stop (!flags.unicode)), cs)
    | _ =>
      if c.isDigit then .error .backReference
      else if isEscapable c then .ok (.char c, cs)
      else .error (.escapeUnknown c)

end Pattern

end Stencil
