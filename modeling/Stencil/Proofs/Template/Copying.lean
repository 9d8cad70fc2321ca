import Stencil.Template.Render

/-!
# Layers and copies

Rendering puts the variables of a loop in a layer over those around.  It puts out what it
would if each round had a context of its own, a copy of the one around in which the
variables of the loop are set.

* `Part.output`: what a part puts out, with a copy of the context for each round.
* `Scope.Shows`: a scope shows the variables of a context; a round shows those of the copy
  (`Scope.Shows.round`).
* `Part.join_piecesOf`: parts put out in a scope what they do for the context it shows.
* `Template.render_eq_outputOf`: what a template puts out.
-/

namespace Stencil

/-! ## Copies -/

namespace Context

def resolve (c : Context) (p : Path) : Value := (c.getPath? p.segments).getD (.string "")

/-- The context of a round of a loop: a copy in which the index and the item are set. -/
def forRound (c : Context) (itemName : String) (item : Value) (indexName : String)
    (index : Nat) : Context :=
  (c.insert indexName (.number (.ofNat index))).insert itemName item

end Context

namespace Part

mutual

/-- What a part puts out for a context. -/
def output : Part → Context → String
  | literal text, _ => text
  | escape path, c => Stencil.escape (c.resolve path).text
  | interpolate path, c => (c.resolve path).text
  | loop collection itemName indexName body, c =>
    .join ((c.resolve collection).items.zipIdx.map fun (item, i) =>
      outputOf body (c.forRound itemName item indexName i))
  | conditional condition thenBranch elseBranch, c =>
    if (c.resolve condition).isTruthy then outputOf thenBranch c
    else outputOfBranch elseBranch c
termination_by structural p => p

def outputOf : List Part → Context → String
  | [], _ => ""
  | p :: ps, c => p.output c ++ outputOf ps c
termination_by structural ps => ps

def outputOfBranch : Option (List Part) → Context → String
  | none, _ => ""
  | some ps, c => outputOf ps c
termination_by structural b => b

end

end Part

/-! ## Layers -/

/-- **Whether a scope shows the variables of a context**: it finds the same under every
name. -/
def Scope.Shows (s : Scope) (c : Context) : Prop := ∀ name, s.lookup name = c.get? name

namespace Scope.Shows

variable {s : Scope} {c : Context}

theorem root (c : Context) : (Scope.root c).Shows c := fun _ => rfl

/-- **A round shows its copy**, whatever names are hidden: the item hides the index, and
both hide what is around. -/
theorem round (h : s.Shows c) (itemName : String) (item : Value) (indexName : String)
    (index : Nat) :
    (Scope.round s itemName item indexName index).Shows
      (c.forRound itemName item indexName index) := by
  intro name
  rw [lookup, Context.forRound, Context.get?_insert, Context.get?_insert, h name]

theorem resolve (h : s.Shows c) (p : Path) : s.resolve p = c.resolve p := by
  rw [Scope.resolve, Context.resolve]
  cases p.segments with
  | nil => rfl
  | cons key keys =>
    rw [Context.getPath?]
    simp only [h key]

end Scope.Shows

/-! ## Outputs -/

theorem join_flatMap {α : Type} (xs : List α) (f : α → List String) :
    String.join (xs.flatMap f) = String.join (xs.map fun x => String.join (f x)) := by
  induction xs with
  | nil => rfl
  | cons x xs ih =>
    rw [List.flatMap_cons, List.map_cons, String.join_append, String.join_cons, ih]

theorem join_singleton (s : String) : String.join [s] = s := by
  rw [String.join_cons, String.join_nil, String.append_empty]

namespace Part

variable {s : Scope} {c : Context}

theorem join_piecesOf_cons {p : Part} {ps : List Part}
    (hPart : String.join (p.pieces s) = p.output c)
    (hRest : String.join (piecesOf ps s) = outputOf ps c) :
    String.join (piecesOf (p :: ps) s) = outputOf (p :: ps) c := by
  rw [piecesOf, outputOf, String.join_append, hPart, hRest]

/-- **Parts put out in a scope what they do for the context that it shows.** -/
theorem join_piecesOf (h : s.Shows c) (ps : List Part) :
    String.join (piecesOf ps s) = outputOf ps c := by
  induction ps using Part.listInduction generalizing s c with
  | nil => rfl
  | literal text ps ih =>
    refine join_piecesOf_cons ?_ (ih h)
    rw [pieces, output, join_singleton]
  | escape path ps ih =>
    refine join_piecesOf_cons ?_ (ih h)
    rw [pieces, output, join_singleton, h.resolve]
  | interpolate path ps ih =>
    refine join_piecesOf_cons ?_ (ih h)
    rw [pieces, output, join_singleton, h.resolve]
  | loop collection itemName indexName body ps ihBody ih =>
    refine join_piecesOf_cons ?_ (ih h)
    rw [pieces, output, join_flatMap, h.resolve]
    -- each round shows its copy, so its body puts out the same
    refine congrArg String.join (List.map_congr_left ?_)
    rintro ⟨item, i⟩ _
    exact ihBody (h.round itemName item indexName i)
  | conditional condition body ps ihBody ih =>
    refine join_piecesOf_cons ?_ (ih h)
    rw [pieces, output, h.resolve]
    split
    · exact ihBody h
    · rfl
  | branches condition first second ps ihFirst ihSecond ih =>
    refine join_piecesOf_cons ?_ (ih h)
    rw [pieces, output, h.resolve]
    split
    · exact ihFirst h
    · exact ihSecond h

end Part

/-- **A template puts out what it does with a copy of the context for each round**, however
deep its loops are and whatever names they hide. -/
theorem Template.render_eq_outputOf (t : Template) (c : Context) :
    t.render c = Part.outputOf t.parts c :=
  Part.join_piecesOf (Scope.Shows.root c) t.parts

end Stencil
