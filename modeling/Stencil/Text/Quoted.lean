import Stencil.Text.Category

/-!
# Quoted text

* `quoted`: a text in double quotes, with escapes for quotes, backslashes and the
  characters that cannot be seen.
-/

namespace Stencil.Text

def joinsPrevious (c : Char) : Bool :=
  let k := Category.of c
  k == .nonspacingMark || k == .enclosingMark || c == '\u200c' || c == '\uff9e' || c == '\uff9f'

/-- Whether a character can be seen; of the blanks only the space counts as seen. -/
def isVisible (c : Char) : Bool :=
  c == ' ' || !((Category.of c).major == 'C' || (Category.of c).major == 'Z')

def quoteChar (c : Char) : List Char :=
  match c with
  | '\x00' => ['\\', '0']
  | '\t' => ['\\', 't']
  | '\r' => ['\\', 'r']
  | '\n' => ['\\', 'n']
  | '\\' => ['\\', '\\']
  | '"' => ['\\', '"']
  | '\'' => ['\\', '\'']
  | _ =>
    if joinsPrevious c || !isVisible c then
      '\\' :: 'u' :: '\x7b' :: Nat.toDigits 16 c.toNat ++ ['\x7d']
    else [c]

/-- A text in double quotes. -/
def quoted (s : String) : String :=
  String.ofList ('"' :: s.toList.flatMap quoteChar ++ ['"'])

end Stencil.Text
