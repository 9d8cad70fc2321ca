/-!
# Names of files

A name of a file is a sequence of parts between slashes.  Empty parts and single dots do
not count.

* `FileName.parts`: the parts of a name; `FileName.step` is where a part leads to.
* `FileName.extension?`: what follows the last dot of the last part.
* `FileName.parent?`: the name of the directory a file is in.
-/

namespace Stencil.FileName

def splitSlashes : List Char → List (List Char)
  | [] => [[]]
  | c :: cs =>
    if c = '/' then [] :: splitSlashes cs
    else
      match splitSlashes cs with
      | [] => [[c]]
      | p :: ps => (c :: p) :: ps

def parts (name : String) : List String :=
  ((splitSlashes name.toList).filter fun p => p ≠ [] && p ≠ ['.']).map String.ofList

/-- The path that a part leads to from a directory: two dots lead upwards. -/
def step (here : List String) (part : String) : List String :=
  if part = ".." then here.dropLast else here ++ [part]

def namesDirectory (name : String) : Bool :=
  match (splitSlashes name.toList).getLast? with
  | some [] => true
  | some ['.'] => true
  | _ => false

/-- The last part of a name, unless it leads upwards. -/
def last? (name : String) : Option String :=
  match (parts name).getLast? with
  | some p => if p = ".." then none else some p
  | none => none

/-- What follows the last dot of the last part; a dot at its start does not count. -/
def extension? (name : String) : Option String :=
  match last? name with
  | none => none
  | some p =>
    let cs := p.toList.reverse
    match cs.dropWhile (· != '.') with
    | [] => none
    | [_] => none
    | _ :: _ => some (String.ofList (cs.takeWhile (· != '.')).reverse)

/-- A text without the slashes, and the single dots between them, at its end; the text is
given from its end to its start, and a slash at the very start is kept. -/
def trimEndSlashes : Nat → List Char → List Char
  | 0, cs => cs
  | fuel + 1, cs =>
    match cs with
    | ['/'] => ['/']
    | '/' :: cs => trimEndSlashes fuel cs
    | '.' :: '/' :: cs => trimEndSlashes fuel ('/' :: cs)
    | cs => cs

/-- The name of the directory that a file is in: the name without its last part.  A name
without parts has none. -/
def parent? (name : String) : Option String :=
  if (parts name).isEmpty then none
  else
    let cs := trimEndSlashes (name.length + 1) name.toList.reverse
    let rest := cs.dropWhile (· != '/')
    some (String.ofList (trimEndSlashes (name.length + 1) rest).reverse)

end Stencil.FileName
