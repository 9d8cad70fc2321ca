import Stencil.Template.Basic
import Stencil.Context
import Stencil.Escape

/-!
# Rendering templates

* `Part.pieces`: what a part puts out in a scope, piece by piece.
* `Template.render`: the output of a template for a context.
-/

namespace Stencil

namespace Part

mutual

/-- What a part puts out in a scope, piece by piece. -/
def pieces : Part → Scope → List String
  | literal text, _ => [text]
  | escape path, scope => [Stencil.escape (scope.resolve path).text]
  | interpolate path, scope => [(scope.resolve path).text]
  | loop collection itemName indexName body, scope =>
    (scope.resolve collection).items.zipIdx.flatMap fun (item, i) =>
      piecesOf body (.round scope itemName item indexName i)
  | conditional condition thenBranch elseBranch, scope =>
    if (scope.resolve condition).isTruthy then piecesOf thenBranch scope
    else piecesOfBranch elseBranch scope
termination_by structural p => p

def piecesOf : List Part → Scope → List String
  | [], _ => []
  | p :: ps, scope => p.pieces scope ++ piecesOf ps scope
termination_by structural ps => ps

def piecesOfBranch : Option (List Part) → Scope → List String
  | none, _ => []
  | some ps, scope => piecesOf ps scope
termination_by structural b => b

end

end Part

namespace Template

def renderIn (t : Template) (scope : Scope) : String := .join (Part.piecesOf t.parts scope)

/-- The output of a template for a context. -/
def render (t : Template) (c : Context) : String := t.renderIn (.root c)

end Template

end Stencil
