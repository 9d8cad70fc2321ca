import Mathlib.Data.List.Infix
import Stencil.Template.Render

/-!
# Data cannot become markup

What a template puts out of its data is escaped, unless a part inserts it as it is.  So in
the output of a template without such parts only the literals can open a tag, end an
attribute or begin a reference of their own.

* `references`: the references that escaping writes.
* `Inert`: texts that hold no markup but these references (`Inert.append`).
* `inert_escape`: an escaped text is inert.
* `Part.IsEscaped`: parts that insert nothing as it is; `Part.literals` are their literals.
* `Part.literalOrInert_of_mem_piecesOf`: a piece that such parts put out is a literal or
  inert.
* `Template.render_eq_join_inert`: the same for the output of a template.
-/

namespace Stencil

/-! ## Inert texts -/

def references : List String := ["&amp;", "&lt;", "&gt;", "&quot;", "&#x27;", "&#x60;"]

/-- Whether a text has no meaning in markup but that of references: none of the other
characters occurs, and every ampersand begins a reference. -/
structure Inert (cs : List Char) : Prop where
  plain : ∀ c ∈ cs, c ∉ ['<', '>', '"', '\'', '\x60']
  reference : ∀ rest, '&' :: rest <:+ cs → ∃ r ∈ references, r.toList <+: '&' :: rest

theorem inert_nil : Inert [] where
  plain := nofun
  reference _ h := nomatch List.suffix_nil.mp h

theorem Inert.append {as bs : List Char} (ha : Inert as) (hb : Inert bs) : Inert (as ++ bs) where
  plain c hc := (List.mem_append.mp hc).elim (ha.plain c) (hb.plain c)
  reference rest h := by
    obtain ⟨before, hSplit⟩ := h
    rcases List.append_eq_append_iff.mp hSplit with ⟨more, hAs, hRest⟩ | ⟨more, -, hBs⟩
    · cases more with
      | nil => exact hb.reference rest ⟨[], hRest⟩
      | cons c more =>
        -- the ampersand lies in the first text, so its reference does
        obtain ⟨rfl, rfl⟩ := List.cons.inj hRest
        obtain ⟨r, hr, hPrefix⟩ := ha.reference more ⟨before, hAs.symm⟩
        exact ⟨r, hr, hPrefix.trans (List.prefix_append ('&' :: more) bs)⟩
    · exact hb.reference rest ⟨more, hBs.symm⟩

theorem inert_of_mem_references {r : String} (h : r ∈ references) : Inert r.toList := by
  have hPlain : references.all (fun r => r.toList.all fun c =>
      decide (c ∉ ['<', '>', '"', '\'', '\x60'])) = true := by decide
  have hOne : ∀ r ∈ references, ∀ s ∈ r.toList.tails, s.head? = some '&' →
      s = r.toList := by decide
  refine ⟨fun c hc => ?_, fun rest hRest => ⟨r, h, ?_⟩⟩
  · exact of_decide_eq_true (List.all_eq_true.mp (List.all_eq_true.mp hPlain r h) c hc)
  · rw [hOne r h _ ((List.mem_tails _ _).mpr hRest) rfl]

theorem mem_references {c : Char} {r : String} (h : reference? c = some r) : r ∈ references := by
  unfold reference? at h
  split at h <;> cases h <;> decide

theorem not_mem_of_reference?_eq_none {c : Char} (h : reference? c = none) :
    c ∉ ['&', '<', '>', '"', '\'', '\x60'] := by
  intro hc
  simp only [List.mem_cons, List.not_mem_nil, or_false] at hc
  rcases hc with rfl | rfl | rfl | rfl | rfl | rfl <;> cases h

theorem inert_escapeChar (c : Char) : Inert (escapeChar c) := by
  rw [escapeChar]
  cases h : reference? c with
  | some r => exact inert_of_mem_references (mem_references h)
  | none =>
    have hNot := not_mem_of_reference?_eq_none h
    rw [List.mem_cons, not_or] at hNot
    obtain ⟨hAmp, hOther⟩ := hNot
    refine ⟨fun d hd => List.mem_singleton.mp hd ▸ hOther, fun rest hRest => ?_⟩
    have hMem : '&' ∈ [c] := hRest.subset List.mem_cons_self
    exact absurd (List.mem_singleton.mp hMem).symm hAmp

/-- **An escaped text is inert**, whatever the text. -/
theorem inert_escape (s : String) : Inert (escape s).toList := by
  rw [escape_eq_flatMap, String.toList_ofList]
  induction s.toList with
  | nil => exact inert_nil
  | cons c cs ih =>
    rw [List.flatMap_cons]
    exact (inert_escapeChar c).append ih

/-! ## Parts -/

namespace Part

mutual

/-- Whether a part inserts nothing as it is, at any depth. -/
def IsEscaped : Part → Prop
  | literal _ => True
  | escape _ => True
  | interpolate _ => False
  | loop _ _ _ body => AllEscaped body
  | conditional _ thenBranch elseBranch => AllEscaped thenBranch ∧ BranchEscaped elseBranch
termination_by structural p => p

def AllEscaped : List Part → Prop
  | [] => True
  | p :: ps => p.IsEscaped ∧ AllEscaped ps
termination_by structural ps => ps

def BranchEscaped : Option (List Part) → Prop
  | none => True
  | some ps => AllEscaped ps
termination_by structural b => b

end

mutual

/-- The texts of the literals in a part, at any depth. -/
def literals : Part → List String
  | literal text => [text]
  | escape _ => []
  | interpolate _ => []
  | loop _ _ _ body => literalsOf body
  | conditional _ thenBranch elseBranch => literalsOf thenBranch ++ literalsOfBranch elseBranch
termination_by structural p => p

def literalsOf : List Part → List String
  | [] => []
  | p :: ps => p.literals ++ literalsOf ps
termination_by structural ps => ps

def literalsOfBranch : Option (List Part) → List String
  | none => []
  | some ps => literalsOf ps
termination_by structural b => b

end

def LiteralOrInert (texts : List String) (piece : String) : Prop :=
  piece ∈ texts ∨ Inert piece.toList

theorem LiteralOrInert.mono {texts more : List String} {piece : String}
    (h : LiteralOrInert texts piece) (hSub : texts ⊆ more) : LiteralOrInert more piece :=
  h.imp_left fun hMem => hSub hMem

theorem literalOrInert_cons {p : Part} {ps : List Part} {s : Scope}
    (hPart : ∀ x ∈ p.pieces s, LiteralOrInert p.literals x)
    (hRest : ∀ x ∈ piecesOf ps s, LiteralOrInert (literalsOf ps) x) :
    ∀ x ∈ piecesOf (p :: ps) s, LiteralOrInert (literalsOf (p :: ps)) x := by
  intro x hx
  rw [literalsOf]
  rcases List.mem_append.mp hx with hx | hx
  · exact (hPart x hx).mono (List.subset_append_left _ _)
  · exact (hRest x hx).mono (List.subset_append_right _ _)

/-- **What parts put out of data is inert**, in whatever scope. -/
theorem literalOrInert_of_mem_piecesOf {ps : List Part} (h : AllEscaped ps) (s : Scope) :
    ∀ x ∈ piecesOf ps s, LiteralOrInert (literalsOf ps) x := by
  induction ps using Part.listInduction generalizing s with
  | nil => exact nofun
  | literal text ps ih =>
    refine literalOrInert_cons (fun x hx => ?_) (ih h.2 s)
    exact .inl hx
  | escape path ps ih =>
    refine literalOrInert_cons (fun x hx => ?_) (ih h.2 s)
    obtain rfl := List.mem_singleton.mp hx
    exact .inr (inert_escape _)
  | interpolate path ps ih => exact absurd h.1 id
  | loop collection itemName indexName body ps ihBody ih =>
    refine literalOrInert_cons (fun x hx => ?_) (ih h.2 s)
    obtain ⟨⟨item, i⟩, -, hItem⟩ := List.mem_flatMap.mp hx
    exact ihBody h.1 _ x hItem
  | conditional condition body ps ihBody ih =>
    refine literalOrInert_cons (fun x hx => ?_) (ih h.2 s)
    refine (?_ : LiteralOrInert (literalsOf body) x).mono (List.subset_append_left _ _)
    rw [pieces] at hx
    split at hx
    · exact ihBody h.1.1 s x hx
    · cases hx
  | branches condition first second ps ihFirst ihSecond ih =>
    refine literalOrInert_cons (fun x hx => ?_) (ih h.2 s)
    rw [pieces] at hx
    split at hx
    · exact (ihFirst h.1.1 s x hx).mono (List.subset_append_left _ _)
    · exact (ihSecond h.1.2 s x hx).mono (List.subset_append_right _ _)

end Part

/-- **No data becomes markup**: when nothing is inserted as it is, the output is made of
literals of the template and inert texts, for every context. -/
theorem Template.render_eq_join_inert {t : Template} (h : Part.AllEscaped t.parts)
    (c : Context) :
    ∃ pieces, t.render c = String.join pieces ∧
      ∀ x ∈ pieces, x ∈ Part.literalsOf t.parts ∨ Inert x.toList :=
  ⟨Part.piecesOf t.parts (.root c), rfl, Part.literalOrInert_of_mem_piecesOf h (.root c)⟩

/-- A loop over the entries of a map whose values hold tags and references. -/
theorem Template.render_eq_join_inert_loop :
    let t : Template := ⟨[.literal "<b>", .loopOver (.parse "xs") "x"
      [.escape (.parse "x"), .conditional (.parse "x.y") [.literal "&"] none]]⟩
    let c : Context := ⟨[("xs", .map [("<i>", .string "<script>"), ("'", .string "&lt;")])]⟩
    Part.AllEscaped t.parts ∧ ∃ pieces, t.render c = String.join pieces ∧
      ∀ x ∈ pieces, x ∈ Part.literalsOf t.parts ∨ Inert x.toList := by
  intro t c
  have hEscaped : Part.AllEscaped t.parts :=
    ⟨trivial, ⟨trivial, ⟨⟨trivial, trivial⟩, trivial⟩, trivial⟩, trivial⟩
  exact ⟨hEscaped, Template.render_eq_join_inert hEscaped c⟩

end Stencil
