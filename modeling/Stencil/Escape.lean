/-!
# Character references

* `reference?`: the reference for a character that has a meaning in markup.
* `escaped?`: a text with references for such characters, when it has any.
* `escape`: the text with references, else the text itself.  Every character is escaped for
  itself (`escape_eq_flatMap`).
-/

namespace Stencil

/-- The reference for a character that has a meaning in markup. -/
def reference? : Char → Option String
  | '&' => some "&amp;"
  | '<' => some "&lt;"
  | '>' => some "&gt;"
  | '"' => some "&quot;"
  | '\'' => some "&#x27;"
  | '\x60' => some "&#x60;"
  | _ => none

def escapeChar (c : Char) : List Char :=
  match reference? c with
  | some r => r.toList
  | none => [c]

def isUnmarked (c : Char) : Bool := (reference? c).isNone

/-- A text with references for the characters that have a meaning in markup, none when it has
no such characters.  What comes before the first of them is taken as it is. -/
def escaped? (s : String) : Option String :=
  match s.toList.dropWhile isUnmarked with
  | [] => none
  | c :: cs => some (String.ofList (s.toList.takeWhile isUnmarked ++ (c :: cs).flatMap escapeChar))

def escape (s : String) : String := (escaped? s).getD s

theorem escapeChar_of_isUnmarked {c : Char} (h : isUnmarked c = true) : escapeChar c = [c] := by
  rw [escapeChar, Option.isNone_iff_eq_none.mp h]

theorem takeWhile_append_flatMap_escapeChar (cs : List Char) :
    cs.takeWhile isUnmarked ++ (cs.dropWhile isUnmarked).flatMap escapeChar =
      cs.flatMap escapeChar := by
  induction cs with
  | nil => rfl
  | cons c cs ih =>
    by_cases h : isUnmarked c = true
    · rw [List.takeWhile_cons_of_pos h, List.dropWhile_cons_of_pos h, List.cons_append, ih,
        List.flatMap_cons, escapeChar_of_isUnmarked h, List.singleton_append]
    · rw [List.takeWhile_cons_of_neg h, List.dropWhile_cons_of_neg h, List.nil_append]

/-- **Every character is escaped for itself**: it does not matter where the first one with a
meaning in markup is, nor whether there is one. -/
theorem escape_eq_flatMap (s : String) :
    escape s = String.ofList (s.toList.flatMap escapeChar) := by
  have hSplit := List.takeWhile_append_dropWhile (p := isUnmarked) (l := s.toList)
  rw [← takeWhile_append_flatMap_escapeChar, escape, escaped?]
  split
  · rename_i hRest
    rw [hRest, List.append_nil] at hSplit
    rw [hRest, hSplit, List.flatMap_nil, List.append_nil, String.ofList_toList]
    rfl
  · rename_i c cs hRest
    rw [hRest]
    rfl

end Stencil
