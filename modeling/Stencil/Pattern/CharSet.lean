import Stencil.Text.Blank
import Stencil.Text.CaseFold
import Stencil.Text.Letter

/-!
# Sets of characters

* `CharSet`: a set of characters, as an expression.
* `CharSet.contains`: membership.
-/

namespace Stencil

open Text

/-- A set of characters. -/
inductive CharSet where
  | any
  | range (first last : Char)
  | blank
  /-- Decimal digits of any script. -/
  | decimal
  | word
  | alphabetic
  | category (k : Category)
  /-- The characters of the categories with this first letter. -/
  | major (letter : Char)
  | union (a b : CharSet)
  | inter (a b : CharSet)
  | diff (a b : CharSet)
  | compl (a : CharSet)
  /-- The characters that differ in case at most from one of the set. -/
  | folded (a : CharSet)
  deriving DecidableEq, Repr

namespace CharSet

def none : CharSet := .compl .any

def single (c : Char) : CharSet := .range c c

def symmDiff (a b : CharSet) : CharSet := .union (.diff a b) (.diff b a)

def unions : List CharSet → CharSet
  | [] => none
  | [a] => a
  | a :: as => .union a (unions as)

def contains : CharSet → Char → Bool
  | any, _ => true
  | range first last, c => first ≤ c && c ≤ last
  | blank, c => isBlank c
  | decimal, c => isDecimal c
  | word, c => isWord c
  | alphabetic, c => isAlphabetic c
  | category k, c => Category.of c == k
  | major letter, c => (Category.of c).major == letter
  | union a b, c => a.contains c || b.contains c
  | inter a b, c => a.contains c && b.contains c
  | diff a b, c => a.contains c && !b.contains c
  | compl a, c => !a.contains c
  | folded a, c => (CaseFold.variants c).any a.contains

@[simp] theorem contains_single (c d : Char) : (single c).contains d = (c == d) := by
  rw [Bool.eq_iff_iff]
  simp only [single, contains, Bool.and_eq_true, decide_eq_true_eq, beq_iff_eq]
  exact ⟨fun ⟨h₁, h₂⟩ => Char.le_antisymm h₁ h₂, fun h => h ▸ ⟨Char.le_refl _, Char.le_refl _⟩⟩

end CharSet

end Stencil
