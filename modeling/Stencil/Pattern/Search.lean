import Stencil.Pattern.Survey

/-!
# Searching a text

* `Search`: how a pattern matches in a text, as a search tells it: the preferred match at
  each place, and the first of these matches from a place on.
* `Search.find?`: the first match from a place on that is not empty
  (`Search.find?_first`).
* `Search.ofMatches`: the search that a list of matches answers.
-/

namespace Stencil

open Text

/-- Whether a match begins and ends at boundaries of a text. -/
def Match.LiesIn (text : List Char) (m : Match) : Prop :=
  IsBoundary text m.start ∧ IsBoundary text m.stop ∧ m.start ≤ m.stop

/-- Of what there is at each place, the first from an offset on; or there is nothing
from there on. -/
def FirstFrom {α : Type} (at? : Nat → Option α) (offset : Nat) : Option α → Prop
  | none => ∀ i, offset ≤ i → at? i = none
  | some a => ∃ i, offset ≤ i ∧ at? i = some a ∧ ∀ j, offset ≤ j → j < i → at? j = none

/-- A search for a pattern in a text.  What matches at a place depends on the place
alone, wherever the search began. -/
structure Search (text : List Char) where
  /-- The preferred match that starts at a place. -/
  at? : Nat → Option Match
  from? : Nat → Option Match
  at?_start : ∀ {offset m}, at? offset = some m → m.start = offset
  at?_liesIn : ∀ {offset m}, at? offset = some m → m.LiesIn text
  /-- Searches begin at boundaries only. -/
  from?_first : ∀ {offset}, IsBoundary text offset → FirstFrom at? offset (from? offset)

namespace FirstFrom

variable {α β : Type} {at? : Nat → Option α} {offset later : Nat} {found other : Option α}

/-- **The first is unique.** -/
theorem unique (h₁ : FirstFrom at? offset found) (h₂ : FirstFrom at? offset other) :
    found = other := by
  cases found with
  | none =>
    cases other with
    | none => rfl
    | some b =>
      obtain ⟨i, hi, hb, -⟩ := h₂
      exact nomatch (h₁ i hi).symm.trans hb
  | some a =>
    obtain ⟨i, hi, ha, hBefore⟩ := h₁
    cases other with
    | none => exact nomatch (h₂ i hi).symm.trans ha
    | some b =>
      obtain ⟨j, hj, hb, hBefore'⟩ := h₂
      rcases Nat.lt_trichotomy i j with hlt | rfl | hlt
      · exact nomatch (hBefore' i hi hlt).symm.trans ha
      · exact ha.symm.trans hb
      · exact nomatch (hBefore j hj hlt).symm.trans hb

theorem some_iff {start : α → Nat} (hStart : ∀ {i a}, at? i = some a → start a = i) {a : α} :
    FirstFrom at? offset (some a) ↔ offset ≤ start a ∧ at? (start a) = some a ∧
      ∀ j, offset ≤ j → j < start a → at? j = none := by
  constructor
  · rintro ⟨i, hi, ha, hUntil⟩
    obtain rfl := hStart ha
    exact ⟨hi, ha, hUntil⟩
  · exact fun h => ⟨start a, h⟩

theorem extend (h : FirstFrom at? later found) (hle : offset ≤ later)
    (hNone : ∀ i, offset ≤ i → i < later → at? i = none) : FirstFrom at? offset found := by
  have hBefore : ∀ i, offset ≤ i → (later ≤ i → at? i = none) → at? i = none := by
    intro i hi hLater
    by_cases hlt : i < later
    · exact hNone i hi hlt
    · exact hLater (Nat.le_of_not_lt hlt)
  cases found with
  | none => exact fun i hi => hBefore i hi (h i)
  | some a =>
    obtain ⟨i, hi, ha, hUntil⟩ := h
    exact ⟨i, Nat.le_trans hle hi, ha, fun j hj hlt => hBefore j hj fun hl => hUntil j hl hlt⟩

/-- What is first stays first for later beginnings, unless these have passed it. -/
theorem mono (h : FirstFrom at? offset found) (hle : offset ≤ later)
    (hAhead : ∀ a i, found = some a → at? i = some a → later ≤ i) :
    FirstFrom at? later found := by
  cases found with
  | none => exact fun i hi => h i (Nat.le_trans hle hi)
  | some a =>
    obtain ⟨i, -, ha, hUntil⟩ := h
    exact ⟨i, hAhead a i rfl ha, ha, fun j hj hlt => hUntil j (Nat.le_trans hle hj) hlt⟩

theorem map (h : FirstFrom at? offset found) (f : α → β) :
    FirstFrom (fun i => (at? i).map f) offset (found.map f) := by
  cases found with
  | none => exact fun i hi => congrArg (·.map f) (h i hi)
  | some a =>
    obtain ⟨i, hi, ha, hUntil⟩ := h
    exact ⟨i, hi, congrArg (·.map f) ha, fun j hj hlt => congrArg (·.map f) (hUntil j hj hlt)⟩

end FirstFrom

namespace Search

variable {text : List Char}

/-- The preferred match that starts at a place, unless it is empty. -/
def nonempty? (s : Search text) (offset : Nat) : Option Match :=
  (s.at? offset).filter fun m => !m.isEmpty

/-- The first match that is not empty, from an offset on; `rest` is the text from there
on.  After an empty match the search goes on one character later. -/
def findIn? (s : Search text) (offset : Nat) (rest : List Char) : Option Match :=
  match s.from? offset with
  | none => none
  | some m =>
    if m.isEmpty then
      match _h : dropBytes (m.start - offset) rest with
      | [] => none
      | c :: cs => s.findIn? (m.start + c.utf8Size) cs
    else some m
termination_by rest.length
decreasing_by
  have hLength := length_dropBytes_le (m.start - offset) rest
  rw [_h] at hLength
  exact hLength

def find? (s : Search text) (offset : Nat) : Option Match :=
  s.findIn? offset (dropBytes offset text)

/-! ## What is found -/

theorem nonempty?_eq_some {s : Search text} {offset : Nat} {m : Match} :
    s.nonempty? offset = some m ↔ s.at? offset = some m ∧ m.isEmpty = false := by
  rw [nonempty?, Option.filter_eq_some_iff]
  simp

theorem nonempty?_start {s : Search text} {offset : Nat} {m : Match}
    (h : s.nonempty? offset = some m) : m.start = offset :=
  s.at?_start (nonempty?_eq_some.mp h).1

theorem nonempty?_of_at?_eq_none {s : Search text} {offset : Nat} (h : s.at? offset = none) :
    s.nonempty? offset = none := by
  rw [nonempty?, h]
  rfl

theorem at?_eq_none_of_lt (s : Search text) {i j : Nat} {c : Char} {rest : List Char}
    (hi : IsBoundary text i) (hDrop : dropBytes i text = c :: rest) (hlt : i < j)
    (hj : j < i + c.utf8Size) : s.at? j = none := by
  cases hm : s.at? j with
  | none => rfl
  | some m =>
    have hBoundary := (s.at?_liesIn hm).1
    rw [s.at?_start hm] at hBoundary
    have := hi.next_le hBoundary hlt hDrop
    omega

theorem at?_eq_none_of_byteLength_lt (s : Search text) {i : Nat} (hlt : byteLength text < i) :
    s.at? i = none := by
  cases hm : s.at? i with
  | none => rfl
  | some m =>
    have hBoundary := (s.at?_liesIn hm).1.le
    rw [s.at?_start hm] at hBoundary
    omega

theorem of_from?_eq_some {s : Search text} {offset : Nat} {m : Match}
    (h : IsBoundary text offset) (hFrom : s.from? offset = some m) :
    offset ≤ m.start ∧ s.at? m.start = some m ∧
      ∀ i, offset ≤ i → i < m.start → s.at? i = none := by
  have hFirst := s.from?_first h
  rw [hFrom] at hFirst
  exact (FirstFrom.some_iff s.at?_start).mp hFirst

theorem nonempty?_eq_none_of_le {s : Search text} {offset : Nat} {m : Match}
    (h : IsBoundary text offset) (hFrom : s.from? offset = some m) (hEmpty : m.isEmpty = true) :
    ∀ i, offset ≤ i → i ≤ m.start → s.nonempty? i = none := by
  obtain ⟨-, hAt, hUntil⟩ := of_from?_eq_some h hFrom
  intro i hi hle
  by_cases hlt : i < m.start
  · exact nonempty?_of_at?_eq_none (hUntil i hi hlt)
  · obtain rfl : i = m.start := by omega
    rw [nonempty?, hAt, Option.filter_some, hEmpty]
    rfl

/-- Up to the place after an empty match there is none that is not empty. -/
theorem nonempty?_eq_none_of_lt_next {s : Search text} {offset : Nat} {m : Match} {c : Char}
    {cs : List Char} (h : IsBoundary text offset) (hFrom : s.from? offset = some m)
    (hEmpty : m.isEmpty = true) (hDrop : dropBytes m.start text = c :: cs) :
    ∀ i, offset ≤ i → i < m.start + c.utf8Size → s.nonempty? i = none := by
  intro i hi hlt
  by_cases hi' : i ≤ m.start
  · exact nonempty?_eq_none_of_le h hFrom hEmpty i hi hi'
  · have hStart := (s.at?_liesIn (of_from?_eq_some h hFrom).2.1).1
    exact nonempty?_of_at?_eq_none (s.at?_eq_none_of_lt hStart hDrop (Nat.lt_of_not_le hi') hlt)

/-- **Retrying finds the first match that is not empty**: each retry begins one place
after an empty match. -/
theorem findIn?_first (s : Search text) (offset : Nat) (rest : List Char)
    (hOffset : IsBoundary text offset) (hRest : rest = dropBytes offset text) :
    FirstFrom s.nonempty? offset (s.findIn? offset rest) := by
  induction offset, rest using findIn?.induct s with
  | case1 offset rest hFrom =>
    have hFirst := s.from?_first hOffset
    rw [hFrom] at hFirst
    rw [findIn?, hFrom]
    exact fun i hi => nonempty?_of_at?_eq_none (hFirst i hi)
  | case2 offset rest m hFrom hEmpty hDrop =>
    obtain ⟨hle, hAt, -⟩ := of_from?_eq_some hOffset hFrom
    have hStart := (s.at?_liesIn hAt).1
    have hHere := hDrop
    rw [hRest, ← hOffset.dropBytes_add, Nat.add_sub_cancel' hle] at hHere
    -- the empty match is at the end of the text, and nothing starts behind that
    have hEnd := hStart.eq_byteLength hHere
    have hNone : ∀ i, offset ≤ i → s.nonempty? i = none := by
      intro i hi
      by_cases hi' : i ≤ m.start
      · exact nonempty?_eq_none_of_le hOffset hFrom hEmpty i hi hi'
      · exact nonempty?_of_at?_eq_none (s.at?_eq_none_of_byteLength_lt (by omega))
    rw [findIn?, hFrom]
    simp only [hEmpty, if_true]
    split
    · exact hNone
    · rename_i c cs hCons
      exact absurd (hCons.symm.trans hDrop) (List.cons_ne_nil c cs)
  | case3 offset rest m hFrom hEmpty c cs hDrop ih =>
    obtain ⟨hle, hAt, -⟩ := of_from?_eq_some hOffset hFrom
    have hStart := (s.at?_liesIn hAt).1
    have hHere : dropBytes m.start text = c :: cs := by
      rw [← hDrop, hRest, ← hOffset.dropBytes_add, Nat.add_sub_cancel' hle]
    have hRetry := ih (hStart.next hHere) (hStart.dropBytes_next hHere).symm
    have hNone := nonempty?_eq_none_of_lt_next hOffset hFrom hEmpty hHere
    rw [findIn?, hFrom]
    simp only [hEmpty, if_true]
    split
    · rename_i hNil
      exact absurd (hDrop.symm.trans hNil) (List.cons_ne_nil c cs)
    · rename_i c' cs' hCons
      obtain ⟨rfl, rfl⟩ := List.cons.inj (hDrop.symm.trans hCons)
      exact hRetry.extend (Nat.le_trans hle (Nat.le_add_right _ _)) hNone
  | case4 offset rest m hFrom hFull =>
    obtain ⟨hle, hAt, hUntil⟩ := of_from?_eq_some hOffset hFrom
    have hFound := nonempty?_eq_some.mpr ⟨hAt, Bool.eq_false_iff.mpr hFull⟩
    rw [findIn?, hFrom]
    simp only [hFull]
    exact ⟨m.start, hle, hFound, fun i hi hlt => nonempty?_of_at?_eq_none (hUntil i hi hlt)⟩

theorem find?_first (s : Search text) {offset : Nat} (h : IsBoundary text offset) :
    FirstFrom s.nonempty? offset (s.find? offset) :=
  s.findIn?_first offset _ h rfl

/-! ## Searching a list of matches -/

def ofMatches (ms : List Match) (hIn : ∀ m ∈ ms, m.LiesIn text)
    (hIncreasing : ms.Pairwise fun a b => a.start < b.start) : Search text where
  at? offset := ms.find? fun m => m.start == offset
  from? offset := ms.find? fun m => offset ≤ m.start
  at?_start h := by simpa using List.find?_some h
  at?_liesIn h := hIn _ (List.mem_of_find?_eq_some h)
  from?_first := by
    intro offset _
    cases hFound : ms.find? fun m => offset ≤ m.start with
    | none =>
      have hNone := List.find?_eq_none.mp hFound
      intro i hi
      refine List.find?_eq_none.mpr fun m hm => ?_
      have := hNone m hm
      simp only [decide_eq_true_eq] at this
      simp only [beq_iff_eq]
      omega
    | some m =>
      obtain ⟨hStart, before, after, rfl, hBefore⟩ := List.find?_eq_some_iff_append.mp hFound
      simp only [decide_eq_true_eq] at hStart
      have hSmall : ∀ a ∈ before, a.start < offset := by
        intro a ha
        have := hBefore a ha
        simp only [Bool.not_eq_true', decide_eq_false_iff_not] at this
        omega
      have hLarge : ∀ a ∈ after, m.start < a.start :=
        (List.pairwise_cons.mp (List.pairwise_append.mp hIncreasing).2.1).1
      refine ⟨m.start, hStart, List.find?_eq_some_iff_append.mpr
        ⟨by simp, before, after, rfl, fun a ha => ?_⟩, fun i hi hlt => ?_⟩
      · have := hSmall a ha
        simp only [Bool.not_eq_true', beq_eq_false_iff_ne]
        omega
      · refine List.find?_eq_none.mpr fun a ha => ?_
        simp only [beq_iff_eq]
        rcases List.mem_append.mp ha with ha | ha
        · have := hSmall a ha
          omega
        · rcases List.mem_cons.mp ha with rfl | ha
          · omega
          · have := hLarge a ha
            omega

end Search

end Stencil
