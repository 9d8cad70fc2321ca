import Mathlib.Data.List.Basic
import Stencil.Template.Render

/-!
# Free names

A template looks up the first key of each of its paths.  The names of a loop are bound in its
body, though not in the path of its collection; the names that no loop around binds are free,
and nothing else of a context shows in the output.

* `Part.freeNames`: the free names of a part.
* `Scope.AgreeOn`: two scopes in which the same is found under names; the rounds of a loop
  agree on the names that the loop binds too (`Scope.AgreeOn.round`).
* `Part.piecesOf_eq_of_agreeOn`: parts put out the same in scopes that agree on their free names.
* `Template.render_eq_of_freeNames`: the same for the output of a template.
-/

namespace Stencil

/-! ## Names -/

def Path.names (p : Path) : List String := p.segments.head?.toList

namespace Part

mutual

/-- The names that a part looks up, but for those that its loops bind. -/
def freeNames : Part → List String
  | literal _ => []
  | escape path => path.names
  | interpolate path => path.names
  | loop collection itemName indexName body =>
    collection.names ++ (freeNamesOf body).filter fun name => name ∉ [itemName, indexName]
  | conditional condition thenBranch elseBranch =>
    condition.names ++ (freeNamesOf thenBranch ++ freeNamesOfBranch elseBranch)
termination_by structural p => p

def freeNamesOf : List Part → List String
  | [] => []
  | p :: ps => p.freeNames ++ freeNamesOf ps
termination_by structural ps => ps

def freeNamesOfBranch : Option (List Part) → List String
  | none => []
  | some ps => freeNamesOf ps
termination_by structural b => b

end

end Part

/-! ## Scopes that agree -/

/-- Whether the same is found in two scopes under names: the same value, or none in both. -/
def Scope.AgreeOn (names : List String) (s s' : Scope) : Prop :=
  ∀ name ∈ names, s.lookup name = s'.lookup name

namespace Scope.AgreeOn

variable {s s' : Scope} {names more : List String}

theorem mono (h : AgreeOn names s s') (hSub : more ⊆ names) : AgreeOn more s s' :=
  fun name hName => h name (hSub hName)

theorem left (h : AgreeOn (names ++ more) s s') : AgreeOn names s s' :=
  h.mono (List.subset_append_left names more)

theorem right (h : AgreeOn (names ++ more) s s') : AgreeOn more s s' :=
  h.mono (List.subset_append_right names more)

theorem resolve {p : Path} (h : AgreeOn p.names s s') : s.resolve p = s'.resolve p := by
  rw [Path.names] at h
  rw [Scope.resolve, Scope.resolve]
  cases hSegments : p.segments with
  | nil => rfl
  | cons key keys =>
    rw [hSegments] at h
    simp only [h key List.mem_cons_self]

/-- **A round binds its names**: the scopes around have to agree on the others only. -/
theorem round {itemName indexName : String}
    (h : AgreeOn (names.filter fun name => name ∉ [itemName, indexName]) s s') (item : Value)
    (index : Nat) :
    AgreeOn names (s.round itemName item indexName index)
      (s'.round itemName item indexName index) := by
  intro name hName
  rw [lookup, lookup]
  by_cases hItem : name = itemName
  · rw [if_pos hItem, if_pos hItem]
  · by_cases hIndex : name = indexName
    · rw [if_neg hItem, if_neg hItem, if_pos hIndex, if_pos hIndex]
    · rw [if_neg hItem, if_neg hItem, if_neg hIndex, if_neg hIndex]
      refine h name (List.mem_filter.mpr ⟨hName, ?_⟩)
      simp [hItem, hIndex]

end Scope.AgreeOn

/-! ## Outputs -/

namespace Part

variable {s s' : Scope}

theorem piecesOf_cons_eq {p : Part} {ps : List Part} (hPart : p.pieces s = p.pieces s')
    (hRest : piecesOf ps s = piecesOf ps s') : piecesOf (p :: ps) s = piecesOf (p :: ps) s' := by
  rw [piecesOf, piecesOf, hPart, hRest]

/-- **Parts put out the same in scopes that agree on their free names.** -/
theorem piecesOf_eq_of_agreeOn {ps : List Part} (h : Scope.AgreeOn (freeNamesOf ps) s s') :
    piecesOf ps s = piecesOf ps s' := by
  induction ps using Part.listInduction generalizing s s' with
  | nil => rfl
  | literal text ps ih => exact piecesOf_cons_eq rfl (ih h.right)
  | escape path ps ih =>
    refine piecesOf_cons_eq ?_ (ih h.right)
    rw [pieces, pieces, h.left.resolve]
  | interpolate path ps ih =>
    refine piecesOf_cons_eq ?_ (ih h.right)
    rw [pieces, pieces, h.left.resolve]
  | loop collection itemName indexName body ps ihBody ih =>
    refine piecesOf_cons_eq ?_ (ih h.right)
    -- the collection is looked up outside of the loop, the body inside
    have hCollection : s.resolve collection = s'.resolve collection := h.left.left.resolve
    have hBody := h.left.right
    rw [pieces, pieces, hCollection]
    refine List.flatMap_congr ?_
    rintro ⟨item, i⟩ _
    exact ihBody (hBody.round item i)
  | conditional condition body ps ihBody ih =>
    refine piecesOf_cons_eq ?_ (ih h.right)
    have hCondition : s.resolve condition = s'.resolve condition := h.left.left.resolve
    rw [pieces, pieces, hCondition, ihBody h.left.right.left]
    rfl
  | branches condition first second ps ihFirst ihSecond ih =>
    refine piecesOf_cons_eq ?_ (ih h.right)
    have hCondition : s.resolve condition = s'.resolve condition := h.left.left.resolve
    have hSecond : piecesOfBranch (some second) s = piecesOfBranch (some second) s' :=
      ihSecond h.left.right.right
    rw [pieces, pieces, hCondition, ihFirst h.left.right.left, hSecond]

end Part

namespace Template

/-- **Nothing but the values of its free names shows in what a template puts out**: neither the
order of the variables, nor a variable that loops hide wherever it is named. -/
theorem render_eq_of_freeNames (t : Template) (c : Context) :
    (∀ d : Context, (∀ name ∈ Part.freeNamesOf t.parts, c.get? name = d.get? name) →
      t.render c = t.render d) ∧
    (∀ d : Context, (c.entries.map (·.1)).Nodup → c.entries.Perm d.entries →
      t.render c = t.render d) ∧
    ∀ name v, name ∉ Part.freeNamesOf t.parts → t.render (c.insert name v) = t.render c := by
  have hAgree {d : Context} (h : ∀ name ∈ Part.freeNamesOf t.parts, c.get? name = d.get? name) :
      t.render c = t.render d := by
    have hScopes : Scope.AgreeOn (Part.freeNamesOf t.parts) (.root c) (.root d) := h
    exact congrArg String.join (Part.piecesOf_eq_of_agreeOn hScopes)
  refine ⟨fun d => hAgree, fun d hNodup hPerm => ?_, fun name v hFree => ?_⟩
  · exact hAgree fun name _ => Entries.lookup_eq_of_perm hNodup hPerm name
  · refine (hAgree fun other hOther => ?_).symm
    have hOtherName : other ≠ name := fun hSame => hFree (hSame ▸ hOther)
    rw [Context.get?_insert, if_neg hOtherName]

/-- A loop whose names are variables too: one is the collection itself, the other is hidden. -/
theorem render_eq_of_freeNames_hidden :
    let t : Template := ⟨[.loopOver (.parse "x") "x"
      [.interpolate (.parse "x.name"), .escape (.parse "x_index"), .interpolate (.parse "y[0]")]]⟩
    let item : Value := .map [("name", .string "a")]
    let c : Context := ⟨[("x", .list [item]), ("x_index", .null), ("y", .list [])]⟩
    let d : Context := ⟨[("y", .list []), ("z", .bool true), ("x", .list [item])]⟩
    let e : Context := ⟨[("x_index", .null), ("x", .list [item]), ("y", .list [])]⟩
    ((∀ name ∈ Part.freeNamesOf t.parts, c.get? name = d.get? name) ∧ t.render c = t.render d) ∧
      ((c.entries.map (·.1)).Nodup ∧ c.entries.Perm e.entries ∧ t.render c = t.render e) ∧
      "x_index" ∉ Part.freeNamesOf t.parts ∧
      t.render (c.insert "x_index" (.bool true)) = t.render c := by
  intro t item c d e
  have hNames : Part.freeNamesOf t.parts = ["x", "y"] := by decide +kernel
  have hAgree : ∀ name ∈ Part.freeNamesOf t.parts, c.get? name = d.get? name := by
    rw [hNames]
    exact List.forall_mem_cons.mpr ⟨rfl, List.forall_mem_singleton.mpr rfl⟩
  have hNodup : (c.entries.map (·.1)).Nodup := by simp [c]
  have hPerm : c.entries.Perm e.entries := .swap _ _ _
  have hFree : "x_index" ∉ Part.freeNamesOf t.parts := by
    rw [hNames]
    decide
  obtain ⟨hSame, hOrder, hHidden⟩ := render_eq_of_freeNames t c
  exact ⟨⟨hAgree, hSame d hAgree⟩, ⟨hNodup, hPerm, hOrder e hNodup hPerm⟩, hFree,
    hHidden "x_index" (.bool true) hFree⟩

end Template

end Stencil
