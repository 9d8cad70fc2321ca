import Stencil.Path
import Stencil.Directive

/-!
# Templates

* `Part`: a piece of a template; loops and conditionals hold the pieces they rule
  (`Part.listInduction`).
* `Template`: pieces in order.
* `TemplateFault`: why a text is no template.
-/

namespace Stencil

/-- A piece of a template. -/
inductive Part where
  | literal (text : String)
  | escape (path : Path)
  | interpolate (path : Path)
  | loop (collection : Path) (itemName indexName : String) (body : List Part)
  | conditional (condition : Path) (thenBranch : List Part) (elseBranch : Option (List Part))

namespace Part

/-- A loop that counts its rounds under the name of its item with `_index`. -/
def loopOver (collection : Path) (itemName : String) (body : List Part) : Part :=
  loop collection itemName (itemName ++ "_index") body

mutual

def same : Part → Part → Bool
  | literal s, literal t => s == t
  | escape p, escape q => p == q
  | interpolate p, interpolate q => p == q
  | loop p a i body, loop q b j other => p == q && a == b && i == j && sameList body other
  | conditional p t e, conditional q u f => p == q && sameList t u && sameBranch e f
  | _, _ => false
termination_by structural p => p

def sameList : List Part → List Part → Bool
  | [], [] => true
  | p :: ps, q :: qs => p.same q && sameList ps qs
  | _, _ => false
termination_by structural ps => ps

def sameBranch : Option (List Part) → Option (List Part) → Bool
  | none, none => true
  | some ps, some qs => sameList ps qs
  | _, _ => false
termination_by structural b => b

end

end Part

namespace Part

/-- **Induction on parts one after another**: a block is reached with what holds of its
branches and of the parts after it. -/
@[elab_as_elim]
theorem listInduction {motive : List Part → Prop} (nil : motive [])
    (literal : ∀ text ps, motive ps → motive (.literal text :: ps))
    (escape : ∀ path ps, motive ps → motive (.escape path :: ps))
    (interpolate : ∀ path ps, motive ps → motive (.interpolate path :: ps))
    (loop : ∀ collection itemName indexName body ps, motive body → motive ps →
      motive (.loop collection itemName indexName body :: ps))
    (conditional : ∀ condition body ps, motive body → motive ps →
      motive (.conditional condition body none :: ps))
    (branches : ∀ condition first second ps, motive first → motive second → motive ps →
      motive (.conditional condition first (some second) :: ps)) :
    ∀ ps, motive ps :=
  @Part.rec_1 (fun p => ∀ ps, motive ps → motive (p :: ps)) motive
    (fun b => ∀ condition first ps, motive first → motive ps →
      motive (.conditional condition first b :: ps))
    literal escape interpolate
    (fun collection itemName indexName body hBody ps =>
      loop collection itemName indexName body ps hBody)
    (fun condition first _ hFirst hBranch ps => hBranch condition first ps hFirst)
    nil
    (fun _ ps hp => hp ps)
    conditional
    (fun second hSecond condition first ps hFirst =>
      branches condition first second ps hFirst hSecond)

end Part

structure Template where
  parts : List Part

namespace Template

def same (s t : Template) : Bool := Part.sameList s.parts t.parts

end Template

/-- Why a text is no template, with the offset of the directive at fault. -/
inductive TemplateFault where
  /-- A terminator outside of all blocks. -/
  | unexpectedEnd (offset : Nat)
  /-- An alternative where no first branch of a conditional is open. -/
  | unexpectedElse (offset : Nat)
  /-- A conditional that is never closed. -/
  | unterminatedIf (offset : Nat)
  /-- A loop that is never closed. -/
  | unterminatedLoop (offset : Nat)
  deriving DecidableEq, Repr

namespace TemplateFault

def offset : TemplateFault → Nat
  | unexpectedEnd o => o
  | unexpectedElse o => o
  | unterminatedIf o => o
  | unterminatedLoop o => o

def message : TemplateFault → String
  | unexpectedEnd o => s!"unexpected end of template structure at offset {o}"
  | unexpectedElse o => s!"unexpected else at offset {o}"
  | unterminatedIf o => s!"unterminated if (opened at offset {o})"
  | unterminatedLoop o => s!"unterminated loop (opened at offset {o})"

end TemplateFault

inductive TemplateError where
  | structural (fault : TemplateFault)
  | invalidPattern (invalid : InvalidPattern)
  deriving DecidableEq, Repr

namespace TemplateError

def offset? : TemplateError → Option Nat
  | structural fault => some fault.offset
  | invalidPattern _ => none

def message : TemplateError → String
  | structural fault => fault.message
  | invalidPattern ⟨kind, fault⟩ => "invalid " ++ kind.name ++ " pattern: " ++ fault.message

end TemplateError

end Stencil
