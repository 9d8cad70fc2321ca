import Stencil.Template.Basic
import Stencil.Token

/-!
# Compiling templates

The tokens of a text are read from left to right.  A block is read by a call of its own,
which ends at the terminator or the alternative that closes the block and hands back the
tokens after it.

* `Frame`: the block that is read.
* `compileScope`: the parts of a block, what closed it and the tokens after it
  (`Frame.parse`).
* `Template.ofTokens`: the template of a list of tokens.
* `Template.compile`: the template of a text.
-/

namespace Stencil

open Text

def Directive.parsedPath (d : Directive) : Path := .parse (d.path.getD "")

def Directive.trimmedItemName (d : Directive) : String := trimmed (d.itemName.getD "")

/-- The block that is read, with the offset where it opened. -/
inductive Frame where
  | root
  | loop (opened : Nat)
  | thenBranch (opened : Nat)
  | elseBranch (opened : Nat)
  deriving DecidableEq, Repr

inductive Closer where
  | endOfInput
  | terminator
  | alternative
  deriving DecidableEq, Repr

namespace Frame

def atEnd : Frame → Except TemplateFault Closer
  | root => .ok .endOfInput
  | loop opened => .error (.unterminatedLoop opened)
  | thenBranch opened => .error (.unterminatedIf opened)
  | elseBranch opened => .error (.unterminatedIf opened)

def atAlternative (offset : Nat) : Frame → Except TemplateFault Closer
  | thenBranch _ => .ok .alternative
  | root => .error (.unexpectedElse offset)
  | loop _ => .error (.unexpectedElse offset)
  | elseBranch _ => .error (.unexpectedElse offset)

def atTerminator (offset : Nat) : Frame → Except TemplateFault Closer
  | root => .error (.unexpectedEnd offset)
  | loop _ => .ok .terminator
  | thenBranch _ => .ok .terminator
  | elseBranch _ => .ok .terminator

end Frame

/-- What is read of a block: its parts, what closed it and the tokens after it. -/
structure PartialParse where
  parts : List Part
  closedBy : Closer
  rest : List Token

def PartialParse.prepend (ps : List Part) (p : PartialParse) : PartialParse :=
  { p with parts := ps ++ p.parts }

/-- What is read of a block from its first token on; a block inside is read by a call of its
own, which tells how many tokens are left. -/
def compileScope (frame : Frame) (tokens : List Token) :
    Except TemplateFault { p : PartialParse // p.rest.length ≤ tokens.length } :=
  match tokens with
  | [] => do
    let closer ← frame.atEnd
    return ⟨⟨[], closer, []⟩, Nat.le_refl 0⟩
  | .literal text _ :: tokens => do
    let ⟨p, h⟩ ← compileScope frame tokens
    return ⟨p.prepend [.literal text], Nat.le_succ_of_le h⟩
  | .directive d :: tokens =>
    match d.kind with
    | .escape => do
      let ⟨p, h⟩ ← compileScope frame tokens
      return ⟨p.prepend [.escape d.parsedPath], Nat.le_succ_of_le h⟩
    | .interpolate => do
      let ⟨p, h⟩ ← compileScope frame tokens
      return ⟨p.prepend [.interpolate d.parsedPath], Nat.le_succ_of_le h⟩
    | .loop => do
      let ⟨body, hBody⟩ ← compileScope (.loop d.start) tokens
      let ⟨p, h⟩ ← compileScope frame body.rest
      return ⟨p.prepend [.loopOver d.parsedPath d.trimmedItemName body.parts],
        Nat.le_succ_of_le (Nat.le_trans h hBody)⟩
    | .conditional => do
      let ⟨first, hFirst⟩ ← compileScope (.thenBranch d.start) tokens
      match first.closedBy with
      | .alternative =>
        let ⟨second, hSecond⟩ ← compileScope (.elseBranch d.start) first.rest
        let ⟨p, h⟩ ← compileScope frame second.rest
        return ⟨p.prepend [.conditional d.parsedPath first.parts (some second.parts)],
          Nat.le_succ_of_le (Nat.le_trans h (Nat.le_trans hSecond hFirst))⟩
      | _ =>
        let ⟨p, h⟩ ← compileScope frame first.rest
        return ⟨p.prepend [.conditional d.parsedPath first.parts none],
          Nat.le_succ_of_le (Nat.le_trans h hFirst)⟩
    | .alternative => do
      let closer ← frame.atAlternative d.start
      return ⟨⟨[], closer, tokens⟩, Nat.le_succ _⟩
    | .terminate => do
      let closer ← frame.atTerminator d.start
      return ⟨⟨[], closer, tokens⟩, Nat.le_succ _⟩
termination_by tokens.length
decreasing_by all_goals (simp only [List.length_cons]; omega)

def Frame.parse (frame : Frame) (tokens : List Token) : Except TemplateFault PartialParse :=
  (compileScope frame tokens).map Subtype.val

namespace Template

def ofTokens (tokens : List Token) : Except TemplateFault Template :=
  (Frame.root.parse tokens).map fun p => ⟨p.parts⟩

/-- The template of a text under rules. -/
def compileWith (rules : RuleSet) (source : String) : Except TemplateFault Template :=
  ofTokens (rules.tokens source)

variable [PatternCompiler]

def compile (d : Dialect) (source : String) : Except TemplateError Template :=
  match RuleSet.make d with
  | .error invalid => .error (.invalidPattern invalid)
  | .ok rules => (compileWith rules source).mapError .structural

theorem compile_of_make {d : Dialect} {rules : RuleSet} (h : RuleSet.make d = .ok rules)
    (source : String) : compile d source = (compileWith rules source).mapError .structural := by
  rw [compile, h]

end Template

end Stencil
