import Mathlib.Data.List.Induction
import Stencil.Text.Position

/-!
# Positions and offsets

A line and a column lead back to the offset that they are told for: first so many line breaks
are skipped, and then so many characters of one line.

* `Position.offset?`: the offset that a position leads to.
* `exists_lines`: the whole lines of a text and the begin of a line after them, which its position
  counts.
* `Position.offset?_ofOffset`: the position of an offset leads back to it.
* `Position.ofOffset_lt_ofOffset`: positions come in the order of their offsets.
-/

namespace Stencil.Text

variable {cs before rest : List Char}

/-! ## From positions to offsets -/

def skipLines? : Nat → List Char → Option Nat
  | 0, _ => some 0
  | _ + 1, [] => none
  | n + 1, c :: cs => (skipLines? (if c = '\n' then n else n + 1) cs).map (c.utf8Size + ·)

/-- The length of the first `n` characters of a text, when no line break is among them. -/
def skipColumns? : Nat → List Char → Option Nat
  | 0, _ => some 0
  | _ + 1, [] => none
  | n + 1, c :: cs => if c = '\n' then none else (skipColumns? n cs).map (c.utf8Size + ·)

/-- **The offset that a position leads to**: that of a character in a line, or of the end of
one. -/
def Position.offset? (p : Position) (source : String) : Option Nat :=
  (skipLines? (p.line - 1) source.toList).bind fun i =>
    (skipColumns? (p.column - 1) (dropBytes i source.toList)).map (i + ·)

theorem skipLines?_append {lines : List Char} (h : ∀ c ∈ lines.getLast?, c = '\n') :
    skipLines? (lines.count '\n') (lines ++ rest) = some (byteLength lines) := by
  induction lines with
  | nil => rw [List.count_nil, skipLines?, byteLength]
  | cons c lines ih =>
    have hLast : ∀ d ∈ lines.getLast?, d = '\n' := by
      intro d hd
      refine h d ?_
      rw [List.getLast?_cons, Option.mem_def.mp hd]
      rfl
    by_cases hc : c = '\n'
    · rw [hc, List.count_cons_self, List.cons_append, skipLines?, if_pos rfl, ih hLast, byteLength]
      rfl
    · -- the last line break comes later
      have hBreak : '\n' ∈ lines := by
        cases hEnd : lines.getLast? with
        | none =>
          rw [List.getLast?_eq_none_iff.mp hEnd] at h
          exact absurd (h c rfl) hc
        | some d => exact hLast d hEnd ▸ List.mem_of_getLast? hEnd
      obtain ⟨n, hn⟩ := Nat.exists_eq_add_one.mpr (List.count_pos_iff.mpr hBreak)
      rw [List.count_cons_of_ne hc, hn, List.cons_append, skipLines?, if_neg hc, ← hn, ih hLast,
        byteLength]
      rfl

theorem skipColumns?_append {column : List Char} (h : '\n' ∉ column) :
    skipColumns? column.length (column ++ rest) = some (byteLength column) := by
  induction column with
  | nil => rw [List.length_nil, skipColumns?, byteLength]
  | cons c column ih =>
    obtain ⟨hc, hRest⟩ := not_or.mp (mt List.mem_cons.mpr h)
    rw [List.length_cons, List.cons_append, skipColumns?, if_neg (Ne.symm hc), ih hRest, byteLength]
    rfl

/-! ## From offsets to positions -/

theorem before?_byteLength_append (a b : List Char) : before? (byteLength a) (a ++ b) = some a := by
  induction a with
  | nil => rw [byteLength, before?]
  | cons c a ih =>
    have := c.utf8Size_pos
    obtain ⟨n, hn⟩ : ∃ n, c.utf8Size + byteLength a = n + 1 := ⟨_, (Nat.succ_pred (by omega)).symm⟩
    rw [byteLength, hn, List.cons_append, before?, if_pos (by omega), ← hn, Nat.add_sub_cancel_left,
      ih, Option.map_some]

theorem before?_of_byteLength_le {n : Nat} (h : byteLength cs ≤ n) : before? n cs = some cs := by
  induction cs generalizing n with
  | nil => cases n <;> rfl
  | cons c cs ih =>
    have := c.utf8Size_pos
    rw [byteLength] at h
    obtain ⟨m, rfl⟩ : ∃ m, n = m + 1 := ⟨_, (Nat.succ_pred (by omega)).symm⟩
    rw [before?, if_pos (by omega), ih (by omega), Option.map_some]

namespace Position

theorem after_append (a b : List Char) : after (a ++ b) = b.foldl advance (after a) :=
  List.foldl_append

theorem ofOffset_byteLength {source : String} (h : source.toList = before ++ rest) :
    ofOffset source (byteLength before) = after before := by
  rw [ofOffset, h, before?_byteLength_append, Option.getD_some]

theorem ofOffset_of_byteLength_le {source : String} {i : Nat}
    (h : byteLength source.toList ≤ i) :
    ofOffset source i = ofOffset source (byteLength source.toList) := by
  rw [ofOffset, ofOffset, before?_of_byteLength_le h, before?_of_byteLength_le (Nat.le_refl _)]

/-- **A position counts the whole lines** of a text and the characters after them. -/
theorem exists_lines (cs : List Char) :
    ∃ lines column, cs = lines ++ column ∧ (∀ c ∈ lines.getLast?, c = '\n') ∧ '\n' ∉ column ∧
      after cs = ⟨lines.count '\n' + 1, column.length + 1⟩ := by
  induction cs using List.reverseRecOn with
  | nil => exact ⟨[], [], rfl, nofun, nofun, rfl⟩
  | append_singleton cs c ih =>
    obtain ⟨lines, column, rfl, hLines, hColumn, hAfter⟩ := ih
    rw [after_append, hAfter, List.foldl_cons, List.foldl_nil, advance]
    by_cases hc : c = '\n'
    · subst hc
      refine ⟨lines ++ column ++ ['\n'], [], (List.append_nil _).symm, ?_, nofun, ?_⟩
      · rw [List.getLast?_concat]
        exact fun d hd => (Option.some.inj hd).symm
      · rw [if_pos rfl, List.count_append, List.count_append, List.count_eq_zero.mpr hColumn]
        rfl
    · refine ⟨lines, column ++ [c], List.append_assoc .., hLines, ?_, ?_⟩
      · rw [List.mem_append, List.mem_singleton, not_or]
        exact ⟨hColumn, Ne.symm hc⟩
      · rw [if_neg hc, List.length_append, List.length_singleton]

/-- **A position leads back to its offset.** -/
theorem offset?_ofOffset {source : String} {i : Nat} (h : IsBoundary source.toList i) :
    (ofOffset source i).offset? source = some i := by
  obtain ⟨before, rest, hText, rfl⟩ := h
  obtain ⟨lines, column, rfl, hLines, hColumn, hAfter⟩ := exists_lines before
  have hDrop := dropBytes_byteLength_add lines (column ++ rest) 0
  rw [Nat.add_zero, dropBytes_zero] at hDrop
  rw [ofOffset_byteLength hText, hAfter, offset?, hText, Nat.add_sub_cancel, Nat.add_sub_cancel,
    List.append_assoc, skipLines?_append hLines, Option.bind_some, hDrop,
    skipColumns?_append hColumn, Option.map_some, byteLength_append]

/-! ## The order of positions -/

/-- Positions are ordered by their lines, and in a line by their columns. -/
instance : LT Position :=
  ⟨fun p q => p.line < q.line ∨ p.line = q.line ∧ p.column < q.column⟩

theorem lt_iff {p q : Position} :
    p < q ↔ p.line < q.line ∨ p.line = q.line ∧ p.column < q.column :=
  Iff.rfl

theorem lt_advance (p : Position) (c : Char) : p < p.advance c := by
  rw [lt_iff, advance]
  split
  · exact .inl (Nat.lt_succ_self _)
  · exact .inr ⟨rfl, Nat.lt_succ_self _⟩

theorem lt_of_lt_of_lt {p q r : Position} (hpq : p < q) (hqr : q < r) : p < r := by
  rw [lt_iff] at *
  omega

/-- Text moves a position on. -/
theorem lt_foldl_advance (p : Position) (h : cs ≠ []) : p < cs.foldl advance p := by
  induction cs generalizing p with
  | nil => exact absurd rfl h
  | cons c cs ih =>
    rw [List.foldl_cons]
    cases cs with
    | nil => exact p.lt_advance c
    | cons d cs => exact lt_of_lt_of_lt (p.lt_advance c) (ih _ (List.cons_ne_nil d cs))

/-- **Positions come in the order of their offsets.** -/
theorem ofOffset_lt_ofOffset {source : String} {i j : Nat} (hi : IsBoundary source.toList i)
    (hj : IsBoundary source.toList j) (hlt : i < j) : ofOffset source i < ofOffset source j := by
  obtain ⟨before, rest, hText, rfl⟩ := hi
  obtain ⟨longer, rest', hText', rfl⟩ := hj
  obtain ⟨more, rfl, -⟩ := exists_of_byteLength_le (hText.symm.trans hText') (Nat.le_of_lt hlt)
  have hMore : more ≠ [] := by
    rintro rfl
    rw [List.append_nil] at hlt
    exact Nat.lt_irrefl _ hlt
  rw [ofOffset_byteLength hText, ofOffset_byteLength hText', after_append]
  exact lt_foldl_advance _ hMore

end Position

end Stencil.Text
