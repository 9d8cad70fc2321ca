import Stencil.Document.Basic
import Stencil.Document.Numeral

/-!
# JSON documents

* `Json`: a document, with its numbers as they are written.
* `Json.parse`: the document a text spells, or its fault.
* `Json.member?`: a member of an object.
* `Json.document?`: the same with numbers as floats.
-/

namespace Stencil

open Text

/-- A JSON document, with the members of its objects in the order written. -/
inductive Json where
  | null
  | bool (b : Bool)
  | number (n : Numeral)
  | string (s : String)
  | array (items : List Json)
  | object (members : List (String × Json))

instance : Inhabited Json := ⟨.null⟩

inductive JsonFault where
  | unexpectedEnd
  | unexpected (c : Char)
  | invalidNumber
  | invalidEscape
  | loneSurrogate
  | controlCharacter
  | nestedTooDeep
  | trailing
  deriving DecidableEq, Repr

namespace Json

/-- What a reader returns: a value and the text that is left, or a fault. -/
abbrev Reading (α : Type) := Except JsonFault (α × List Char)

def unexpected : List Char → JsonFault
  | [] => .unexpectedEnd
  | c :: _ => .unexpected c

def isSpace (c : Char) : Bool := c == ' ' || c == '\n' || c == '\t' || c == '\r'

def skipSpace (cs : List Char) : List Char := cs.dropWhile isSpace

/-! ## Numbers -/

def readDigits (cs : List Char) : Reading (List Char) :=
  match cs.span Char.isDigit with
  | ([], _) => .error .invalidNumber
  | (digits, rest) => .ok (digits, rest)

/-- The whole part of a number: a zero, or digits that start with another one. -/
def readWhole (cs : List Char) : Reading (List Char) :=
  match cs with
  | '0' :: c :: rest => if c.isDigit then .error .invalidNumber else .ok (['0'], c :: rest)
  | cs => readDigits cs

def readFraction : List Char → Reading (Option (List Char))
  | '.' :: cs => (readDigits cs).map fun (digits, cs) => (some digits, cs)
  | cs => .ok (none, cs)

def readExponent : List Char → Reading (Option (Bool × List Char))
  | c :: cs =>
    if c == 'e' || c == 'E' then
      let (negative, cs) : Bool × List Char :=
        match cs with
        | '-' :: cs => (true, cs)
        | '+' :: cs => (false, cs)
        | cs => (false, cs)
      (readDigits cs).map fun (digits, cs) => (some (negative, digits), cs)
    else .ok (none, c :: cs)
  | [] => .ok (none, [])

def readNumber (cs : List Char) : Reading Numeral :=
  let (negative, cs) : Bool × List Char :=
    match cs with
    | '-' :: cs => (true, cs)
    | cs => (false, cs)
  (readWhole cs).bind fun (whole, cs) =>
    (readFraction cs).bind fun (fraction, cs) =>
      (readExponent cs).map fun (exponent, cs) => (⟨negative, whole, fraction, exponent⟩, cs)

/-! ## Strings -/

def readUnit : List Char → Reading Nat
  | a :: b :: c :: d :: rest =>
    match numberIn? 16 [a, b, c, d] with
    | some n => .ok (n, rest)
    | none => .error .invalidEscape
  | _ => .error .unexpectedEnd

/-- The character of one escaped unit, or of a pair of them. -/
def readUnits (cs : List Char) : Reading Char :=
  (readUnit cs).bind fun (high, cs) =>
    if 0xD800 ≤ high && high < 0xDC00 then
      match cs with
      | '\\' :: 'u' :: cs =>
        (readUnit cs).bind fun (low, cs) =>
          if 0xDC00 ≤ low && low < 0xE000 then
            .ok (Char.ofNat (0x10000 + (high - 0xD800) * 0x400 + (low - 0xDC00)), cs)
          else .error .loneSurrogate
      | _ => .error .loneSurrogate
    else if 0xDC00 ≤ high && high < 0xE000 then .error .loneSurrogate
    else .ok (Char.ofNat high, cs)

def readEscape : List Char → Reading Char
  | [] => .error .unexpectedEnd
  | c :: cs =>
    match c with
    | '"' => .ok ('"', cs)
    | '\\' => .ok ('\\', cs)
    | '/' => .ok ('/', cs)
    | 'b' => .ok ('\x08', cs)
    | 'f' => .ok ('\x0c', cs)
    | 'n' => .ok ('\n', cs)
    | 'r' => .ok ('\r', cs)
    | 't' => .ok ('\t', cs)
    | 'u' => readUnits cs
    | _ => .error .invalidEscape

/-- The rest of a string up to its closing quote; `taken` holds the characters before,
the last one first. -/
def readString (taken : List Char) : Nat → List Char → Reading String
  | 0, _ => .error .unexpectedEnd
  | _ + 1, [] => .error .unexpectedEnd
  | fuel + 1, c :: cs =>
    if c == '"' then .ok (String.ofList taken.reverse, cs)
    else if c == '\\' then
      match readEscape cs with
      | .ok (c, cs) => readString (c :: taken) fuel cs
      | .error e => .error e
    else if c.toNat < 32 then .error .controlCharacter
    else readString (c :: taken) fuel cs

def readText (cs : List Char) : Reading String := readString [] (cs.length + 1) cs

/-! ## Documents -/

def readWord (word : String) (value : Json) (cs : List Char) : Reading Json :=
  if word.toList.isPrefixOf cs then .ok (value, cs.drop word.length)
  else .error (unexpected cs)

def readName (cs : List Char) : Reading String :=
  match skipSpace cs with
  | '"' :: cs =>
    (readText cs).bind fun (name, cs) =>
      match skipSpace cs with
      | ':' :: cs => .ok (name, cs)
      | cs => .error (unexpected cs)
  | cs => .error (unexpected cs)

mutual

/-- A document within at most `depth` more containers. -/
def readValue (depth : Nat) : Nat → List Char → Reading Json
  | 0, _ => .error .unexpectedEnd
  | fuel + 1, cs =>
    match skipSpace cs with
    | [] => .error .unexpectedEnd
    | 'n' :: cs => readWord "ull" .null cs
    | 't' :: cs => readWord "rue" (.bool true) cs
    | 'f' :: cs => readWord "alse" (.bool false) cs
    | '"' :: cs => (readText cs).map fun (s, cs) => (.string s, cs)
    | '[' :: cs =>
      if depth = 0 then .error .nestedTooDeep
      else
        match skipSpace cs with
        | ']' :: cs => .ok (.array [], cs)
        | cs => readItems (depth - 1) [] fuel cs
    | '\x7b' :: cs =>
      if depth = 0 then .error .nestedTooDeep
      else
        match skipSpace cs with
        | '\x7d' :: cs => .ok (.object [], cs)
        | cs => readMembers (depth - 1) [] fuel cs
    | c :: cs =>
      if c == '-' || c.isDigit then (readNumber (c :: cs)).map fun (n, cs) => (.number n, cs)
      else .error (.unexpected c)

/-- The items of an array up to its closing bracket; `items` are those before, the last
one first. -/
def readItems (depth : Nat) (items : List Json) : Nat → List Char → Reading Json
  | 0, _ => .error .unexpectedEnd
  | fuel + 1, cs =>
    match readValue depth fuel cs with
    | .error e => .error e
    | .ok (v, cs) =>
      match skipSpace cs with
      | ',' :: cs => readItems depth (v :: items) fuel cs
      | ']' :: cs => .ok (.array (v :: items).reverse, cs)
      | cs => .error (unexpected cs)

def readMembers (depth : Nat) (members : List (String × Json)) :
    Nat → List Char → Reading Json
  | 0, _ => .error .unexpectedEnd
  | fuel + 1, cs =>
    match readName cs with
    | .error e => .error e
    | .ok (name, cs) =>
      match readValue depth fuel cs with
      | .error e => .error e
      | .ok (v, cs) =>
        match skipSpace cs with
        | ',' :: cs => readMembers depth ((name, v) :: members) fuel cs
        | '\x7d' :: cs => .ok (.object ((name, v) :: members).reverse, cs)
        | cs => .error (unexpected cs)

end

/-- The document a text spells, with at most `depth` containers in one another. -/
def parse (depth : Nat) (text : String) : Except JsonFault Json :=
  let cs := text.toList
  (readValue depth (2 * cs.length + 2) cs).bind fun (v, cs) =>
    if (skipSpace cs).isEmpty then .ok v else .error .trailing

/-! ## What is in a document -/

/-- The member of a name: of several members of one name the last. -/
def member? (name : String) : Json → Option Json
  | object members => members.reverse.lookup name
  | _ => none

mutual

/-- A document with its numbers as floats, when a reader of numbers knows all of them; of members
with one name it keeps the last. -/
def document? (read : Numeral → Option Number) : Json → Option Document
  | null => some .null
  | bool b => some (.bool b)
  | number n => (read n).map fun x => .number (some x)
  | string s => some (.string s)
  | array vs => (documents? read vs).map .array
  | object ms => (members? read ms).map fun ms => .object (Entries.ofPairs ms)
termination_by structural v => v

def documents? (read : Numeral → Option Number) : List Json → Option (List Document)
  | [] => some []
  | v :: vs => (document? read v).bind fun w => (documents? read vs).map (w :: ·)
termination_by structural vs => vs

def members? (read : Numeral → Option Number) :
    List (String × Json) → Option (List (String × Document))
  | [] => some []
  | m :: ms => (namedDocument? read m).bind fun w => (members? read ms).map (w :: ·)
termination_by structural ms => ms

def namedDocument? (read : Numeral → Option Number) :
    String × Json → Option (String × Document)
  | (name, v) => (document? read v).map (name, ·)
termination_by structural m => m

end

end Json

end Stencil
