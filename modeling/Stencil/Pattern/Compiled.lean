import Stencil.Pattern.Parse
import Stencil.Pattern.Surveyed

/-!
# Compiled patterns

Of a pattern a program needs the names of its groups, and a search for it in any text.  How texts
are read as patterns is left open here.

* `CompiledPattern`: a pattern that is ready for use.
* `PatternCompiler`: what reads texts as patterns.
* `Pattern.compile`: the compiler that `Pattern.parse` makes.  It serves where no other is given,
  and knows a part of the language only: of the properties of characters the general categories and
  a few more, and no scripts.
-/

namespace Stencil

/-- A pattern that is ready for use: the names of its groups, from group 1 on, and a search for it
in any text. -/
structure CompiledPattern where
  names : List (Option String)
  search : (text : List Char) → Search text

namespace CompiledPattern

def groupCount (p : CompiledPattern) : Nat := p.names.length

def groupNamed? (p : CompiledPattern) (name : String) : Option Nat :=
  (p.names.findIdx? (· == some name)).map (· + 1)

end CompiledPattern

/-- What reads texts as patterns; of a text that is none it says why. -/
class PatternCompiler where
  compile : String → Except String CompiledPattern

namespace Pattern

def compiled (p : Pattern) : CompiledPattern := ⟨p.names, p.search⟩

def compile (text : String) : Except String CompiledPattern :=
  match parse text with
  | .ok p => .ok p.compiled
  | .error fault => .error ("regex parse error:\nerror: " ++ fault.message)

end Pattern

instance (priority := low) : PatternCompiler := ⟨Pattern.compile⟩

theorem Pattern.compile_of_parse {text : String} {p : Pattern} (h : parse text = .ok p) :
    PatternCompiler.compile text = .ok p.compiled := by
  show compile text = _
  rw [compile, h]

end Stencil
