import Stencil.Text.Blank

/-!
# Paths

A path names a value by keys: `a.b`, `a[0]`, `a["some key"]`.

* `Path.parse`: the path a text spells.  Every text spells one.
* `Path.split`: the keys of a path, by the mode the reader is in; `Path.split_name_dot` and
  the like say what one character does.
-/

namespace Stencil

open Text

/-- A path: its text without the blanks around it, and its keys. -/
structure Path where
  source : String
  segments : List String
  deriving DecidableEq, Repr

namespace Path

/-- Where the reader of a path stands. -/
inductive Mode where
  | name
  | opened
  | plain
  | quoted (quote : Char)
  | unquoted
  | closed
  deriving DecidableEq, Repr

def keyUnlessEmpty (key : List Char) : List (List Char) := if key.isEmpty then [] else [key]

/-- The keys of a text.  `key` holds what was read of the current key, the last
character first.  A bracket that is never closed becomes a key with the bracket in
front of what it holds. -/
def split : Mode → List Char → List Char → List (List Char)
  | .name, key, [] => keyUnlessEmpty key.reverse
  | .name, key, c :: cs =>
    if c = '.' then key.reverse :: split .name [] cs
    else if c = '[' then keyUnlessEmpty key.reverse ++ split .opened [] cs
    else split .name (c :: key) cs
  | .opened, _, [] => [['[']]
  | .opened, _, c :: cs =>
    if c = ']' then [] :: split .closed [] cs
    else if c = '"' ∨ c = '\'' then split (.quoted c) [] cs
    else split .plain [c] cs
  | .plain, key, [] => ['[' :: trim key.reverse]
  | .plain, key, c :: cs =>
    if c = ']' then trim key.reverse :: split .closed [] cs else split .plain (c :: key) cs
  | .quoted _, key, [] => ['[' :: key.reverse]
  | .quoted q, key, c :: cs =>
    if c = q then split .unquoted key cs else split (.quoted q) (c :: key) cs
  | .unquoted, key, [] => ['[' :: key.reverse]
  | .unquoted, key, c :: cs =>
    if c = ']' then key.reverse :: split .closed [] cs else split .unquoted key cs
  | .closed, _, [] => []
  | .closed, _, c :: cs =>
    if c = '.' then split .name [] cs
    else if c = '[' then split .opened [] cs
    else split .name [c] cs

/-! ## Reading a character -/

section

variable {key cs : List Char} {c : Char}

theorem split_name_nil : split .name key [] = keyUnlessEmpty key.reverse := rfl

theorem split_name_dot : split .name key ('.' :: cs) = key.reverse :: split .name [] cs := rfl

theorem split_name_bracket :
    split .name key ('[' :: cs) = keyUnlessEmpty key.reverse ++ split .opened [] cs := rfl

theorem split_name_of_ne (hDot : c ≠ '.') (hBracket : c ≠ '[') :
    split .name key (c :: cs) = split .name (c :: key) cs :=
  (if_neg hDot).trans (if_neg hBracket)

theorem split_opened_close : split .opened key (']' :: cs) = [] :: split .closed [] cs := rfl

theorem split_opened_quote (hQuote : c = '"' ∨ c = '\'') :
    split .opened key (c :: cs) = split (.quoted c) [] cs := by
  rcases hQuote with rfl | rfl <;> rfl

theorem split_opened_of_ne (hClose : c ≠ ']') (hQuote : ¬(c = '"' ∨ c = '\'')) :
    split .opened key (c :: cs) = split .plain [c] cs :=
  (if_neg hClose).trans (if_neg hQuote)

theorem split_plain_nil : split .plain key [] = ['[' :: trim key.reverse] := rfl

theorem split_plain_close :
    split .plain key (']' :: cs) = trim key.reverse :: split .closed [] cs := rfl

theorem split_plain_of_ne (hClose : c ≠ ']') :
    split .plain key (c :: cs) = split .plain (c :: key) cs :=
  if_neg hClose

theorem split_quoted_nil {q : Char} : split (.quoted q) key [] = ['[' :: key.reverse] := rfl

theorem split_quoted_close {q : Char} :
    split (.quoted q) key (q :: cs) = split .unquoted key cs :=
  if_pos rfl

theorem split_quoted_of_ne {q : Char} (hQuote : c ≠ q) :
    split (.quoted q) key (c :: cs) = split (.quoted q) (c :: key) cs :=
  if_neg hQuote

theorem split_unquoted_nil : split .unquoted key [] = ['[' :: key.reverse] := rfl

theorem split_unquoted_close :
    split .unquoted key (']' :: cs) = key.reverse :: split .closed [] cs := rfl

theorem split_unquoted_of_ne (hClose : c ≠ ']') :
    split .unquoted key (c :: cs) = split .unquoted key cs :=
  if_neg hClose

theorem split_closed_nil : split .closed key [] = [] := rfl

theorem split_closed_dot : split .closed key ('.' :: cs) = split .name [] cs := rfl

theorem split_closed_bracket : split .closed key ('[' :: cs) = split .opened [] cs := rfl

theorem split_closed_of_ne (hDot : c ≠ '.') (hBracket : c ≠ '[') :
    split .closed key (c :: cs) = split .name [c] cs :=
  (if_neg hDot).trans (if_neg hBracket)

end

/-! ## Parsing -/

def parse (text : String) : Path :=
  let source := trim text.toList
  ⟨String.ofList source, (split .name [] source).map String.ofList⟩

/-- The blanks around a text do not count. -/
theorem parse_congr {s t : String} (h : trimmed s = trimmed t) : parse s = parse t := by
  rw [parse, parse, String.ofList_injective h]

end Path

end Stencil
