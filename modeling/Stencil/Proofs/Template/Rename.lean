import Mathlib.Data.List.Basic
import Stencil.Proofs.Template.FreeNames

/-!
# Renaming the variables of a loop

A loop binds two names, that of its item and that of its index, and a loop within it may bind
each of the two anew without the other.  When both names of a loop are exchanged for names that
do not occur in its body, together with what refers to them there, nothing changes in the output.

* `Part.rename`: a part with other free names; below a loop the names that it binds stay
  (`renamingUnder`).
* `Part.names`: all names that occur in a part, free or bound.
* `Scope.Follows`: a scope in which the same is found under the new names; the rounds of a loop
  follow when no new name is one of its own (`Scope.Follows.round`).
* `Part.piecesOf_renameAll`: renamed parts put out in such a scope what the parts do.
* `Surrounding`: a template with a place for one part.
* `Template.render_fill_renamedLoop`: the output of a template in which a loop is renamed.
-/

namespace Stencil

/-! ## Renaming -/

def Path.rename (f : String → String) (p : Path) : Path :=
  { p with segments := p.segments.modifyHead f }

/-- A renaming within a loop: the names that the loop binds stay. -/
def renamingUnder (itemName indexName : String) (f : String → String) (name : String) : String :=
  if name = itemName ∨ name = indexName then name else f name

def renamingOf (itemName indexName newItem newIndex name : String) : String :=
  if name = itemName then newItem else if name = indexName then newIndex else name

namespace Part

mutual

/-- The part with its free names renamed. -/
def rename (f : String → String) : Part → Part
  | literal text => literal text
  | escape path => escape (path.rename f)
  | interpolate path => interpolate (path.rename f)
  | loop collection itemName indexName body =>
    loop (collection.rename f) itemName indexName
      (renameAll (renamingUnder itemName indexName f) body)
  | conditional condition thenBranch elseBranch =>
    conditional (condition.rename f) (renameAll f thenBranch) (renameBranch f elseBranch)
termination_by structural p => p

def renameAll (f : String → String) : List Part → List Part
  | [] => []
  | p :: ps => p.rename f :: renameAll f ps
termination_by structural ps => ps

def renameBranch (f : String → String) : Option (List Part) → Option (List Part)
  | none => none
  | some ps => some (renameAll f ps)
termination_by structural b => b

end

/-- The loop with another name for its item, and the index named after it: in its body what
refers to the old names refers to the new ones. -/
def renamedLoop (collection : Path) (itemName indexName : String) (body : List Part)
    (newName : String) : Part :=
  loopOver collection newName
    (renameAll (renamingOf itemName indexName newName (newName ++ "_index")) body)

mutual

/-- The names that occur in a part, as the first key of a path or bound by a loop. -/
def names : Part → List String
  | literal _ => []
  | escape path => path.names
  | interpolate path => path.names
  | loop collection itemName indexName body =>
    collection.names ++ (itemName :: indexName :: namesOf body)
  | conditional condition thenBranch elseBranch =>
    condition.names ++ (namesOf thenBranch ++ namesOfBranch elseBranch)
termination_by structural p => p

def namesOf : List Part → List String
  | [] => []
  | p :: ps => p.names ++ namesOf ps
termination_by structural ps => ps

def namesOfBranch : Option (List Part) → List String
  | none => []
  | some ps => namesOf ps
termination_by structural b => b

end

end Part

/-! ## New names -/

/-- Whether a renaming gives new names only: none that it gives in place of another one is
among these. -/
def IsFresh (f : String → String) (names : List String) : Prop :=
  ∀ name, f name ≠ name → f name ∉ names

namespace IsFresh

variable {f : String → String} {names more : List String}

theorem mono (h : IsFresh f names) (hSub : more ⊆ names) : IsFresh f more :=
  fun name hName hMem => h name hName (hSub hMem)

theorem left (h : IsFresh f (names ++ more)) : IsFresh f names :=
  h.mono (List.subset_append_left names more)

theorem right (h : IsFresh f (names ++ more)) : IsFresh f more :=
  h.mono (List.subset_append_right names more)

theorem ne {name bound : String} (h : IsFresh f names) (hBound : bound ∈ names)
    (hName : name ≠ bound) : f name ≠ bound := by
  rintro rfl
  exact h name hName.symm hBound

theorem under (h : IsFresh f names) (itemName indexName : String) :
    IsFresh (renamingUnder itemName indexName f) names := by
  intro name hName
  rw [renamingUnder] at hName ⊢
  split at hName
  · exact absurd rfl hName
  · rename_i hFree
    rw [if_neg hFree]
    exact h name hName

end IsFresh

/-! ## Scopes with other names -/

/-- Whether a scope has under the new names what another one has under these names. -/
def Scope.Follows (f : String → String) (names : List String) (s s' : Scope) : Prop :=
  ∀ name ∈ names, s'.lookup (f name) = s.lookup name

namespace Scope.Follows

variable {f : String → String} {names more : List String} {s s' : Scope}

theorem mono (h : Follows f names s s') (hSub : more ⊆ names) : Follows f more s s' :=
  fun name hName => h name (hSub hName)

theorem left (h : Follows f (names ++ more) s s') : Follows f names s s' :=
  h.mono (List.subset_append_left names more)

theorem right (h : Follows f (names ++ more) s s') : Follows f more s s' :=
  h.mono (List.subset_append_right names more)

theorem resolve {p : Path} (h : Follows f p.names s s') :
    s'.resolve (p.rename f) = s.resolve p := by
  rw [Path.names] at h
  rw [Scope.resolve, Scope.resolve, Path.rename]
  cases hSegments : p.segments with
  | nil => rfl
  | cons key keys =>
    rw [hSegments] at h
    simp only [List.modifyHead_cons, h key List.mem_cons_self]

/-- **The rounds of a loop follow**: what it binds keeps its name, and no other name is taken for
one of these. -/
theorem round {itemName indexName : String}
    (h : Follows f (itemName :: indexName :: names) s s')
    (hFresh : IsFresh f (itemName :: indexName :: names)) (item : Value) (index : Nat) :
    Follows (renamingUnder itemName indexName f) names (s.round itemName item indexName index)
      (s'.round itemName item indexName index) := by
  intro name hName
  rw [renamingUnder]
  by_cases hItem : name = itemName
  · rw [if_pos (.inl hItem), lookup, lookup, if_pos hItem, if_pos hItem]
  by_cases hIndex : name = indexName
  · rw [if_pos (.inr hIndex), lookup, lookup, if_neg hItem, if_neg hItem, if_pos hIndex,
      if_pos hIndex]
  · have hItem' : f name ≠ itemName := hFresh.ne List.mem_cons_self hItem
    have hIndex' : f name ≠ indexName :=
      hFresh.ne (List.mem_cons_of_mem itemName List.mem_cons_self) hIndex
    rw [if_neg (not_or.mpr ⟨hItem, hIndex⟩), lookup, lookup, if_neg hItem, if_neg hIndex,
      if_neg hItem', if_neg hIndex']
    exact h name (List.mem_cons_of_mem itemName (List.mem_cons_of_mem indexName hName))

theorem ofRound {itemName indexName newItem newIndex : String} (hDiffer : newIndex ≠ newItem)
    (hItem : newItem ∉ names) (hIndex : newIndex ∉ names) (s : Scope) (item : Value)
    (index : Nat) :
    Follows (renamingOf itemName indexName newItem newIndex) names
      (s.round itemName item indexName index) (s.round newItem item newIndex index) := by
  intro name hName
  have hNotItem : name ≠ newItem := fun hSame => hItem (hSame ▸ hName)
  have hNotIndex : name ≠ newIndex := fun hSame => hIndex (hSame ▸ hName)
  by_cases hOldItem : name = itemName
  · simp only [renamingOf, lookup, hOldItem, if_true]
  · by_cases hOldIndex : name = indexName
    · subst hOldIndex
      simp only [renamingOf, lookup, hOldItem, hDiffer, if_true, if_false]
    · simp only [renamingOf, lookup, hOldItem, hOldIndex, hNotItem, hNotIndex, if_false]

end Scope.Follows

theorem isFresh_renamingOf {itemName indexName newItem newIndex : String} {names : List String}
    (hItem : newItem ∉ names) (hIndex : newIndex ∉ names) :
    IsFresh (renamingOf itemName indexName newItem newIndex) names := by
  intro name hName
  rw [renamingOf] at hName ⊢
  split
  · exact hItem
  · split
    · exact hIndex
    · simp_all

/-! ## Outputs -/

namespace Part

variable {s s' : Scope}

theorem piecesOf_rename_cons {f : String → String} {p : Part} {ps : List Part}
    (hPart : (p.rename f).pieces s' = p.pieces s)
    (hRest : piecesOf (renameAll f ps) s' = piecesOf ps s) :
    piecesOf (renameAll f (p :: ps)) s' = piecesOf (p :: ps) s := by
  rw [renameAll, piecesOf, piecesOf, hPart, hRest]

/-- **Renamed parts put out what the parts do**, where the scope follows and the new names do not
occur. -/
theorem piecesOf_renameAll {f : String → String} {ps : List Part} (hFresh : IsFresh f (namesOf ps))
    (h : Scope.Follows f (namesOf ps) s s') : piecesOf (renameAll f ps) s' = piecesOf ps s := by
  induction ps using Part.listInduction generalizing f s s' with
  | nil => rfl
  | literal text ps ih => exact piecesOf_rename_cons rfl (ih hFresh.right h.right)
  | escape path ps ih =>
    refine piecesOf_rename_cons ?_ (ih hFresh.right h.right)
    rw [rename, pieces, pieces, h.left.resolve]
  | interpolate path ps ih =>
    refine piecesOf_rename_cons ?_ (ih hFresh.right h.right)
    rw [rename, pieces, pieces, h.left.resolve]
  | loop collection itemName indexName body ps ihBody ih =>
    refine piecesOf_rename_cons ?_ (ih hFresh.right h.right)
    -- the collection is renamed as outside of the loop, the body below its names
    have hBodyFresh := hFresh.left.right
    have hBody := h.left.right
    rw [rename, pieces, pieces, h.left.left.resolve]
    refine List.flatMap_congr ?_
    rintro ⟨item, i⟩ _
    refine ihBody (IsFresh.under ?_ itemName indexName) (hBody.round hBodyFresh item i)
    exact hBodyFresh.mono fun name hName =>
      List.mem_cons_of_mem itemName (List.mem_cons_of_mem indexName hName)
  | conditional condition body ps ihBody ih =>
    refine piecesOf_rename_cons ?_ (ih hFresh.right h.right)
    rw [rename, pieces, pieces, h.left.left.resolve,
      ihBody hFresh.left.right.left h.left.right.left]
    rfl
  | branches condition first second ps ihFirst ihSecond ih =>
    refine piecesOf_rename_cons ?_ (ih hFresh.right h.right)
    have hSecond : piecesOfBranch (renameBranch f (some second)) s' =
        piecesOfBranch (some second) s := ihSecond hFresh.left.right.right h.left.right.right
    rw [rename, pieces, pieces, h.left.left.resolve,
      ihFirst hFresh.left.right.left h.left.right.left, hSecond]

/-- **A renamed loop puts out what the loop does**, in every scope. -/
theorem pieces_renamedLoop {body : List Part} {newName : String} (hItem : newName ∉ namesOf body)
    (hIndex : newName ++ "_index" ∉ namesOf body) (collection : Path)
    (itemName indexName : String) (s : Scope) :
    (renamedLoop collection itemName indexName body newName).pieces s =
      (loop collection itemName indexName body).pieces s := by
  have hDiffer : newName ++ "_index" ≠ newName := by
    intro hSame
    have hLength := congrArg String.length hSame
    rw [String.length_append] at hLength
    exact absurd (Nat.add_eq_left.mp hLength) (by decide)
  rw [renamedLoop, loopOver, pieces, pieces]
  refine List.flatMap_congr ?_
  rintro ⟨item, i⟩ _
  exact piecesOf_renameAll (isFresh_renamingOf hItem hIndex)
    (Scope.Follows.ofRound hDiffer hItem hIndex s item i)

end Part

/-! ## Around a part -/

/-- A template with a place for one part: among parts one after another, or in a block among
these. -/
inductive Surrounding where
  | here (before after : List Part)
  | inLoop (before : List Part) (collection : Path) (itemName indexName : String)
      (inner : Surrounding) (after : List Part)
  | inFirst (before : List Part) (condition : Path) (inner : Surrounding)
      (elseBranch : Option (List Part)) (after : List Part)
  | inSecond (before : List Part) (condition : Path) (thenBranch : List Part)
      (inner : Surrounding) (after : List Part)

namespace Surrounding

def fill (p : Part) : Surrounding → List Part
  | here before after => before ++ p :: after
  | inLoop before collection itemName indexName inner after =>
    before ++ .loop collection itemName indexName (inner.fill p) :: after
  | inFirst before condition inner elseBranch after =>
    before ++ .conditional condition (inner.fill p) elseBranch :: after
  | inSecond before condition thenBranch inner after =>
    before ++ .conditional condition thenBranch (some (inner.fill p)) :: after

theorem piecesOf_append_cons_congr {p q : Part} {s : Scope} (h : p.pieces s = q.pieces s)
    (before after : List Part) :
    Part.piecesOf (before ++ p :: after) s = Part.piecesOf (before ++ q :: after) s := by
  induction before with
  | nil => rw [List.nil_append, List.nil_append, Part.piecesOf, Part.piecesOf, h]
  | cons r before ih => rw [List.cons_append, List.cons_append, Part.piecesOf, Part.piecesOf, ih]

/-- **Parts that put out the same everywhere can stand for each other** in every template. -/
theorem piecesOf_fill_congr {p q : Part} (h : ∀ s, p.pieces s = q.pieces s) (around : Surrounding)
    (s : Scope) : Part.piecesOf (around.fill p) s = Part.piecesOf (around.fill q) s := by
  induction around generalizing s with
  | here before after => exact piecesOf_append_cons_congr (h s) before after
  | inLoop before collection itemName indexName inner after ih =>
    refine piecesOf_append_cons_congr ?_ before after
    rw [Part.pieces, Part.pieces]
    exact List.flatMap_congr fun round _ => ih _
  | inFirst before condition inner elseBranch after ih =>
    refine piecesOf_append_cons_congr ?_ before after
    rw [Part.pieces, Part.pieces, ih]
  | inSecond before condition thenBranch inner after ih =>
    refine piecesOf_append_cons_congr ?_ before after
    rw [Part.pieces, Part.pieces, Part.piecesOfBranch, Part.piecesOfBranch, ih]

end Surrounding

namespace Template

/-- **The variables of a loop can be renamed**: with another name for its item that does not occur
in its body, and whose index does not either, a loop puts out the same in every template, in
whatever scope this is rendered and for whatever context. -/
theorem render_fill_renamedLoop (collection : Path) (itemName indexName : String)
    (body : List Part) (newName : String) (hItem : newName ∉ Part.namesOf body)
    (hIndex : newName ++ "_index" ∉ Part.namesOf body) (around : Surrounding) :
    let old : Template := ⟨around.fill (.loop collection itemName indexName body)⟩
    let new : Template := ⟨around.fill (.renamedLoop collection itemName indexName body newName)⟩
    (∀ s : Scope, new.renderIn s = old.renderIn s) ∧
      ∀ c : Context, new.render c = old.render c := by
  intro old new
  have hScope (s : Scope) : new.renderIn s = old.renderIn s :=
    congrArg String.join (around.piecesOf_fill_congr
      (Part.pieces_renamedLoop hItem hIndex collection itemName indexName) s)
  exact ⟨hScope, fun c => hScope (.root c)⟩

/-- A loop in whose body one loop binds the name of its index and another one that of its item,
within a loop over the same names. -/
theorem render_fill_renamedLoop_captured :
    let shown (first second : String) : List Part :=
      [.interpolate ⟨"x.n", [first, "n"]⟩, .escape ⟨"x_index", [second]⟩]
    let body (first second : String) (m : Path) : List Part :=
      [.loopOver m "x_index" (shown first "x_index"), .loop m "z" "x" (shown "x" second),
        .conditional ⟨"x_index", [second]⟩ (shown first second) none]
    let old := body "x" "x_index" ⟨"x.m", ["x", "m"]⟩
    let new := body "y" "y_index" ⟨"x.m", ["y", "m"]⟩
    let around : Surrounding :=
      .inLoop [] (.parse "xs") "x" "x_index" (.here [.literal "-"] [.escape (.parse "x.n")]) []
    "y" ∉ Part.namesOf old ∧ "y" ++ "_index" ∉ Part.namesOf old ∧
      Part.renamedLoop (.parse "x") "x" "x_index" old "y" = .loopOver (.parse "x") "y" new ∧
      ∀ c : Context, (Template.mk (around.fill (.loopOver (.parse "x") "y" new))).render c =
        (Template.mk (around.fill (.loopOver (.parse "x") "x" old))).render c := by
  intro shown body old new around
  have hItem : "y" ∉ Part.namesOf old := by decide +kernel
  have hIndex : "y" ++ "_index" ∉ Part.namesOf old := by decide +kernel
  have hRenamed :
      Part.renamedLoop (.parse "x") "x" "x_index" old "y" = .loopOver (.parse "x") "y" new := rfl
  refine ⟨hItem, hIndex, hRenamed, ?_⟩
  rw [← hRenamed]
  exact (render_fill_renamedLoop (.parse "x") "x" "x_index" old "y" hItem hIndex around).2

end Template

end Stencil
