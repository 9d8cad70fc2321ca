import Stencil.Template.Basic

/-!
# Printing templates

* `Template.print`: the text of a template in the standard dialect.
-/

namespace Stencil

namespace Part

mutual

/-- The text of a part in the standard dialect. -/
def print : Part → String
  | literal text => text
  | escape path => "<%- " ++ path.source ++ " %>"
  | interpolate path => "<%= " ++ path.source ++ " %>"
  | loop collection itemName _ body =>
    "<% for ( " ++ collection.source ++ " , " ++ itemName ++ " ) %>" ++ printAll body ++ "<% end %>"
  | conditional condition thenBranch elseBranch =>
    "<% if ( " ++ condition.source ++ " ) %>" ++ printAll thenBranch ++ printBranch elseBranch ++
      "<% end %>"
termination_by structural p => p

def printAll : List Part → String
  | [] => ""
  | p :: ps => p.print ++ printAll ps
termination_by structural ps => ps

def printBranch : Option (List Part) → String
  | none => ""
  | some ps => "<% else %>" ++ printAll ps
termination_by structural b => b

end

end Part

namespace Template

def print (t : Template) : String := Part.printAll t.parts

end Template

end Stencil
