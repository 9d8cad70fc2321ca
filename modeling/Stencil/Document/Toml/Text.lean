import Stencil.Text.Digit

/-!
# Texts in TOML documents

* `Toml.skipLines`, `Toml.finishLine`: what may stand between two lines, and at the end of
  one.
* `Toml.readString`: strings, on one line or on several.
* `Toml.readKey`: keys, with points between their names.
-/

namespace Stencil

inductive TomlFault where
  | keyInvalid
  | keyRepeated
  | equalsMissing
  | headerUnclosed
  | valueInvalid
  | stringUnclosed
  | escapeInvalid
  | characterInvalid
  | arrayUnclosed
  | tableUnclosed
  | lineEndMissing
  | nestedTooDeep
  deriving DecidableEq, Repr

namespace Toml

open Text

abbrev Reading (α : Type) := Except TomlFault (α × List Char)

/-! ## Blanks and comments -/

def skipBlanks (cs : List Char) : List Char := cs.dropWhile fun c => c == ' ' || c == '\t'

/-- Whether a character may stand in a comment or, but for quotes and backslashes, in a
string on one line. -/
def isAllowed (c : Char) : Bool := c == '\t' || (32 ≤ c.toNat && c.toNat != 127)

def skipComment : List Char → List Char
  | '#' :: cs => cs.dropWhile isAllowed
  | cs => cs

def lineEnd? : List Char → Option (List Char)
  | '\n' :: cs => some cs
  | '\r' :: '\n' :: cs => some cs
  | _ => none

/-- The text after the rest of a line, which holds a comment at most. -/
def finishLine (cs : List Char) : Except TomlFault (List Char) :=
  let cs := skipComment (skipBlanks cs)
  if cs.isEmpty then .ok []
  else
    match lineEnd? cs with
    | some cs => .ok cs
    | none => .error .lineEndMissing

def skipLines : Nat → List Char → List Char
  | 0, cs => cs
  | fuel + 1, cs =>
    let cs := skipComment (skipBlanks cs)
    match lineEnd? cs with
    | some cs => skipLines fuel cs
    | none => cs

/-! ## Strings -/

def readHex (digits : Nat) (cs : List Char) : Reading Char :=
  match hexChar? digits cs with
  | some c => .ok (c, cs.drop digits)
  | none => .error .escapeInvalid

def readEscape : List Char → Reading Char
  | 'b' :: cs => .ok ('\x08', cs)
  | 't' :: cs => .ok ('\t', cs)
  | 'n' :: cs => .ok ('\n', cs)
  | 'f' :: cs => .ok ('\x0c', cs)
  | 'r' :: cs => .ok ('\r', cs)
  | '"' :: cs => .ok ('"', cs)
  | '\\' :: cs => .ok ('\\', cs)
  | 'u' :: cs => readHex 4 cs
  | 'U' :: cs => readHex 8 cs
  | _ => .error .escapeInvalid

/-- Reads a string on one line up to its closing quote; only between double quotes there
are escapes. -/
def readLine (quote : Char) (taken : List Char) : Nat → List Char → Reading String
  | 0, _ => .error .stringUnclosed
  | _ + 1, [] => .error .stringUnclosed
  | fuel + 1, c :: cs =>
    if c == quote then .ok (String.ofList taken.reverse, cs)
    else if c == '\\' && quote == '"' then
      match readEscape cs with
      | .ok (c, cs) => readLine quote (c :: taken) fuel cs
      | .error e => .error e
    else if isAllowed c then readLine quote (c :: taken) fuel cs
    else .error .characterInvalid

/-- Skips the blanks and line ends after a backslash at the end of a line. -/
def skipBreak : Nat → List Char → List Char
  | 0, cs => cs
  | fuel + 1, cs =>
    let cs := skipBlanks cs
    match lineEnd? cs with
    | some cs => skipBreak fuel cs
    | none => cs

/-- Reads a string on several lines up to its three closing quotes.  Up to two more
quotes before them belong to it. -/
def readText (quote : Char) (taken : List Char) : Nat → List Char → Reading String
  | 0, _ => .error .stringUnclosed
  | fuel + 1, cs =>
    match lineEnd? cs, cs with
    | some cs, _ => readText quote ('\n' :: taken) fuel cs
    | none, [] => .error .stringUnclosed
    | none, c :: rest =>
      if c == quote then
        let quotes := (cs.takeWhile (· == quote)).length
        if 3 ≤ quotes then
          let extra := min (quotes - 3) 2
          .ok (String.ofList (List.replicate extra quote ++ taken).reverse, cs.drop (extra + 3))
        else readText quote (c :: taken) fuel rest
      else if c == '\\' && quote == '"' then
        if (lineEnd? (skipBlanks rest)).isSome then
          readText quote taken fuel (skipBreak rest.length rest)
        else
          match readEscape rest with
          | .ok (c, cs) => readText quote (c :: taken) fuel cs
          | .error e => .error e
      else if isAllowed c then readText quote (c :: taken) fuel rest
      else .error .characterInvalid

/-- Reads a string; a line end right after three opening quotes does not count. -/
def readString (quote : Char) (cs : List Char) : Reading String :=
  if [quote, quote, quote].isPrefixOf cs then
    let cs := cs.drop 3
    let cs := (lineEnd? cs).getD cs
    readText quote [] (cs.length + 1) cs
  else readLine quote [] (cs.length + 1) (cs.drop 1)

/-! ## Keys -/

def isBare (c : Char) : Bool := c.isAlphanum || c == '_' || c == '-'

def readName (cs : List Char) : Reading String :=
  match cs with
  | '"' :: rest => readLine '"' [] (rest.length + 1) rest
  | '\'' :: rest => readLine '\'' [] (rest.length + 1) rest
  | cs =>
    match cs.span isBare with
    | ([], _) => .error .keyInvalid
    | (name, cs) => .ok (String.ofList name, cs)

/-- Reads the names of a key, which points separate; `names` are those before, the last
one first. -/
def readKey (names : List String) : Nat → List Char → Reading (List String × String)
  | 0, _ => .error .keyInvalid
  | fuel + 1, cs =>
    match readName (skipBlanks cs) with
    | .error e => .error e
    | .ok (name, cs) =>
      match skipBlanks cs with
      | '.' :: cs => readKey (name :: names) fuel cs
      | cs => .ok ((names.reverse, name), cs)

end Toml

end Stencil
