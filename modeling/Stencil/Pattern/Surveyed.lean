import Stencil.Pattern.Search

/-!
# Searching by survey

A survey of a text answers every search for the pattern in it: its matches lie in the
text and come in order.

* `Node.EndsIn.enter`, `Node.EndsIn.charge`: one place more of a survey keeps its ends
  within the text.
* `Pattern.surveyed`: what holds of a survey of any text.
* `Pattern.search`: the search that a survey answers.
-/

namespace Stencil

open Text

/-- Whether all ways on from a place end at offsets with a property. -/
def Onward.EndsIn (P : Nat → Prop) (onward : Onward) : Prop :=
  ∀ seen f, (onward seen).1 = some f → P f.stop

def Node.EndsIn (P : Nat → Prop) : Node (Option Finish) → Prop
  | empty => True
  | chars _ next => ∀ f, next = some f → P f.stop
  | anchor _ => True
  | seq a b => a.EndsIn P ∧ b.EndsIn P
  | alt a b => a.EndsIn P ∧ b.EndsIn P
  | many _ body => body.EndsIn P
  | group _ body => body.EndsIn P
  | gate _ body => body.EndsIn P

namespace Onward

variable {P : Nat → Prop} {first second onward : Onward}

theorem EndsIn.stuck : stuck.EndsIn P := fun _ _ h => nomatch h

theorem EndsIn.orElse (h₁ : first.EndsIn P) (h₂ : second.EndsIn P) :
    (first.orElse second).EndsIn P := by
  intro seen f h
  rw [Onward.orElse] at h
  split at h
  · rename_i g seen' hFirst
    obtain rfl : g = f := by simpa using h
    exact h₁ seen g (by rw [hFirst])
  · exact h₂ _ f h

theorem EndsIn.mark (h : onward.EndsIn P) (i : Nat) (closes : Bool) (offset : Nat) :
    (onward.mark i closes offset).EndsIn P := by
  intro seen f hf
  obtain ⟨g, hg, rfl⟩ := Option.map_eq_some_iff.mp hf
  exact h seen g hg

theorem EndsIn.through (h : onward.EndsIn P) (id : Nat) : (onward.through id).EndsIn P := by
  intro seen f hf
  rw [Onward.through] at hf
  split at hf
  · cases hf
  · exact h _ f hf

theorem EndsIn.orAgain (h₁ : onward.EndsIn P) (h₂ : second.EndsIn P) (greedy : Bool) :
    (onward.orAgain greedy second).EndsIn P := by
  rw [Onward.orAgain]
  split
  · exact h₂.orElse h₁
  · exact h₁.orElse h₂

end Onward

namespace Node

variable {P : Nat → Prop}

theorem EndsIn.imp {Q : Nat → Prop} (hPQ : ∀ i, P i → Q i) :
    ∀ {x : Node (Option Finish)}, x.EndsIn P → x.EndsIn Q := by
  intro x
  induction x with
  | empty => exact id
  | anchor => exact id
  | chars set next => exact fun h f hf => hPQ _ (h f hf)
  | seq a b iha ihb => exact fun h => ⟨iha h.1, ihb h.2⟩
  | alt a b iha ihb => exact fun h => ⟨iha h.1, ihb h.2⟩
  | many greedy body ih => exact ih
  | group i body ih => exact ih
  | gate id body ih => exact ih

theorem endsIn_fill_none (x : Node Unit) : (x.fill (none : Option Finish)).EndsIn P := by
  induction x with
  | empty => exact trivial
  | anchor => exact trivial
  | chars set next => exact fun f hf => nomatch hf
  | seq a b iha ihb => exact ⟨iha, ihb⟩
  | alt a b iha ihb => exact ⟨iha, ihb⟩
  | many greedy body ih => exact ih
  | group i body ih => exact ih
  | gate id body ih => exact ih

/-- A way through a node ends where its sets or what follows it ends. -/
theorem EndsIn.enter {here : Place} : ∀ {x : Node (Option Finish)} {onward : Onward},
    x.EndsIn P → onward.EndsIn P → (x.enter here onward).EndsIn P := by
  intro x
  induction x with
  | empty => exact fun _ hOn => hOn
  | anchor a =>
    intro onward _ hOn
    rw [Node.enter]
    split
    · exact hOn
    · exact Onward.EndsIn.stuck
  | chars set next =>
    intro onward h _ seen f hf
    cases next with
    | none => cases hf
    | some g =>
      cases hAfter : here.after with
      | none =>
        rw [Node.enter, hAfter] at hf
        cases hf
      | some c =>
        rw [Node.enter, hAfter] at hf
        by_cases hc : set.contains c
        · obtain rfl : g = f := by simpa [hc] using hf
          exact h g rfl
        · simp [hc] at hf
  | seq a b iha ihb => exact fun h hOn => iha h.1 (ihb h.2 hOn)
  | alt a b iha ihb => exact fun h hOn => (iha h.1 hOn).orElse (ihb h.2 hOn)
  | many greedy body ih => exact fun h hOn => ih h (hOn.orAgain (ih h Onward.EndsIn.stuck) greedy)
  | group i body ih =>
    exact fun h hOn => (ih h (hOn.mark i true here.offset)).mark i false here.offset
  | gate id body ih => exact fun h hOn => (ih h hOn).through id

theorem EndsIn.charge {here : Place} : ∀ {x : Node (Option Finish)} {onward : Onward},
    x.EndsIn P → onward.EndsIn P → (x.charge here onward).EndsIn P := by
  intro x
  induction x with
  | empty => exact fun _ _ => trivial
  | anchor a => exact fun _ _ => trivial
  | chars set next => exact fun _ hOn f hf => hOn [] f hf
  | seq a b iha ihb => exact fun h hOn => ⟨iha h.1 (h.2.enter hOn), ihb h.2 hOn⟩
  | alt a b iha ihb => exact fun h hOn => ⟨iha h.1 hOn, ihb h.2 hOn⟩
  | many greedy body ih =>
    exact fun h hOn => ih h (hOn.orAgain (EndsIn.enter (x := body) h Onward.EndsIn.stuck) greedy)
  | group i body ih => exact fun h hOn => ih h (hOn.mark i true here.offset)
  | gate id body ih => exact fun h hOn => ih h hOn

end Node

namespace Pattern

def IsPlaceFrom (offset : Nat) (cs : List Char) (i : Nat) : Prop :=
  offset ≤ i ∧ IsBoundary cs (i - offset)

theorem isPlaceFrom_self (offset : Nat) (cs : List Char) : IsPlaceFrom offset cs offset :=
  ⟨Nat.le_refl _, by rw [Nat.sub_self]; exact isBoundary_zero cs⟩

theorem IsPlaceFrom.cons {offset : Nat} {c : Char} {cs : List Char} {i : Nat}
    (h : IsPlaceFrom (offset + c.utf8Size) cs i) : IsPlaceFrom offset (c :: cs) i := by
  obtain ⟨hle, before, after, rfl, hLength⟩ := h
  refine ⟨by omega, c :: before, after, rfl, ?_⟩
  rw [byteLength, hLength]
  omega

/-- What holds of a survey of the text from an offset on: everything in it lies there, and
the matches are in order. -/
structure Surveyed (offset : Nat) (cs : List Char) (r : Node (Option Finish) × List Spot) :
    Prop where
  node : r.1.EndsIn (IsPlaceFrom offset cs)
  lies : ∀ m ∈ r.2.filterMap (·.found), IsPlaceFrom offset cs m.start ∧
    IsPlaceFrom offset cs m.stop ∧ m.start ≤ m.stop
  increasing : (r.2.filterMap (·.found)).Pairwise fun a b => a.start < b.start

theorem endsIn_finishAt {P : Nat → Prop} {here : Place} (h : P here.offset) :
    (finishAt here).EndsIn P := by
  intro seen f hf
  obtain rfl : _ = f := Option.some.inj hf
  exact h

theorem Surveyed.step {offset : Nat} {cs : List Char} {here : Place}
    {later : Node (Option Finish) × List Spot} (hHere : here.offset = offset)
    (hNode : later.1.EndsIn (IsPlaceFrom offset cs))
    (hLater : ∀ m ∈ later.2.filterMap (·.found), offset < m.start ∧ IsPlaceFrom offset cs m.start ∧
      IsPlaceFrom offset cs m.stop ∧ m.start ≤ m.stop)
    (hIncreasing : (later.2.filterMap (·.found)).Pairwise fun a b => a.start < b.start) :
    Surveyed offset cs (surveyStep here later) := by
  have hSelf := isPlaceFrom_self offset cs
  have hFinish : (finishAt here).EndsIn (IsPlaceFrom offset cs) :=
    endsIn_finishAt (hHere.symm ▸ hSelf)
  have hFound : ∀ f, (later.1.enter here (finishAt here)).best = some f →
      IsPlaceFrom offset cs f.stop := (hNode.enter hFinish) []
  refine ⟨hNode.charge hFinish, ?_, ?_⟩
  · intro m hm
    rw [surveyStep, List.filterMap_cons] at hm
    cases hBest : (later.1.enter here (finishAt here)).best with
    | none =>
      rw [hBest] at hm
      exact (hLater m hm).2
    | some f =>
      rw [hBest] at hm
      rcases List.mem_cons.mp hm with rfl | hm
      · have hStop := hFound f hBest
        exact ⟨hHere.symm ▸ hSelf, hStop, hHere.symm ▸ hStop.1⟩
      · exact (hLater m hm).2
  -- a match that starts here comes before all that were found later in the text
  · rw [surveyStep, List.filterMap_cons]
    cases hBest : (later.1.enter here (finishAt here)).best with
    | none => exact hIncreasing
    | some f =>
      exact List.pairwise_cons.mpr ⟨fun m hm => hHere.symm ▸ (hLater m hm).1, hIncreasing⟩

theorem surveyed (p : Pattern) (cs : List Char) : ∀ (offset : Nat) (before : Option Char),
    Surveyed offset cs
      ((placesFrom offset before cs).foldr surveyStep (p.root.fill none, [])) := by
  induction cs with
  | nil =>
    intro offset before
    exact .step rfl (Node.endsIn_fill_none _) (fun m hm => nomatch hm) List.Pairwise.nil
  | cons c cs ih =>
    intro offset before
    have hRest := ih (offset + c.utf8Size) (some c)
    refine .step rfl (hRest.node.imp fun i => IsPlaceFrom.cons) (fun m hm => ?_) hRest.increasing
    obtain ⟨hStart, hStop, hle⟩ := hRest.lies m hm
    have := Char.utf8Size_pos c
    exact ⟨by have := hStart.1; omega, hStart.cons, hStop.cons, hle⟩

def search (p : Pattern) (text : List Char) : Search text :=
  have hSurveyed := p.surveyed text 0 none
  .ofMatches (p.occurrences text)
    (fun m hm =>
      have ⟨hStart, hStop, hle⟩ := hSurveyed.lies m hm
      ⟨hStart.2, hStop.2, hle⟩)
    hSurveyed.increasing

end Pattern

end Stencil
