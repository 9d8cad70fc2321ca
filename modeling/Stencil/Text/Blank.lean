/-!
# White space

* `isBlank`: the characters with the `White_Space` property.
* `trim`: a text without the white space around it (`trim_append_append`,
  `trim_eq_self_iff`).
-/

namespace Stencil.Text

def isBlank (c : Char) : Bool :=
  let n := c.toNat
  (9 ≤ n && n ≤ 13) || n == 0x20 || n == 0x85 || n == 0xA0 || n == 0x1680 ||
    (0x2000 ≤ n && n ≤ 0x200A) || n == 0x2028 || n == 0x2029 || n == 0x202F ||
    n == 0x205F || n == 0x3000

def trimStart (cs : List Char) : List Char := cs.dropWhile isBlank

def trimEnd (cs : List Char) : List Char := (cs.reverse.dropWhile isBlank).reverse

def trim (cs : List Char) : List Char := trimEnd (trimStart cs)

/-- A string without the white space around it. -/
def trimmed (s : String) : String := String.ofList (trim s.toList)

def AllBlank (w : List Char) : Prop := ∀ c ∈ w, isBlank c = true

instance (w : List Char) : Decidable (AllBlank w) :=
  decidable_of_iff (w.all isBlank = true) List.all_eq_true

/-! ## Blanks around a text -/

namespace AllBlank

variable {w : List Char}

theorem trimStart_append (h : AllBlank w) (cs : List Char) :
    trimStart (w ++ cs) = trimStart cs :=
  List.dropWhile_append_of_pos h

theorem trimStart_eq_nil (h : AllBlank w) : trimStart w = [] := by
  have hNil := h.trimStart_append []
  rwa [List.append_nil] at hNil

theorem notMem (h : AllBlank w) {c : Char} (hc : isBlank c = false) : c ∉ w := fun hMem =>
  Bool.false_ne_true (hc.symm.trans (h c hMem))

theorem trimEnd_append (h : AllBlank w) (cs : List Char) : trimEnd (cs ++ w) = trimEnd cs := by
  have hReverse : ∀ c ∈ w.reverse, isBlank c = true := fun c hc => h c (List.mem_reverse.mp hc)
  rw [trimEnd, List.reverse_append, List.dropWhile_append_of_pos hReverse, trimEnd]

end AllBlank

/-- **Blanks around a text are trimmed.** -/
theorem trim_append_append {w v : List Char} (hw : AllBlank w) (hv : AllBlank v)
    (cs : List Char) : trim (w ++ cs ++ v) = trim cs := by
  rw [List.append_assoc, trim, hw.trimStart_append, trimStart, List.dropWhile_append, trim,
    trimStart]
  split
  · rename_i hNone
    have hBlank := hv.trimStart_eq_nil
    rw [trimStart] at hBlank
    rw [List.isEmpty_iff.mp hNone, hBlank]
  · exact hv.trimEnd_append _

theorem trimmed_append_append {w v : List Char} (hw : AllBlank w) (hv : AllBlank v)
    (cs : List Char) : trimmed (String.ofList (w ++ cs ++ v)) = trimmed (String.ofList cs) := by
  rw [trimmed, String.toList_ofList, trim_append_append hw hv, trimmed, String.toList_ofList]

/-! ## A text without blanks around it -/

theorem trimStart_eq_self {cs : List Char} (h : ∀ c ∈ cs.head?, isBlank c = false) :
    trimStart cs = cs := by
  cases cs with
  | nil => rfl
  | cons c cs => rw [trimStart, List.dropWhile_cons, h c rfl, if_neg Bool.false_ne_true]

theorem trimEnd_eq_self {cs : List Char} (h : ∀ c ∈ cs.getLast?, isBlank c = false) :
    trimEnd cs = cs := by
  have hReverse : trimStart cs.reverse = cs.reverse :=
    trimStart_eq_self fun c hc => h c (List.head?_reverse ▸ hc)
  rw [trimEnd, ← trimStart, hReverse, List.reverse_reverse]

/-- **A text that neither begins nor ends with a blank** is not changed by trimming. -/
theorem trim_eq_self {cs : List Char} (hFirst : ∀ c ∈ cs.head?, isBlank c = false)
    (hLast : ∀ c ∈ cs.getLast?, isBlank c = false) : trim cs = cs := by
  rw [trim, trimStart_eq_self hFirst, trimEnd_eq_self hLast]

theorem isBlank_of_mem_head?_trimStart {cs : List Char} :
    ∀ c ∈ (trimStart cs).head?, isBlank c = false := by
  intro c hc
  have hNot := List.head?_dropWhile_not isBlank cs
  rw [← trimStart, hc] at hNot
  simpa using hNot

theorem isBlank_of_mem_getLast?_trimEnd {cs : List Char} :
    ∀ c ∈ (trimEnd cs).getLast?, isBlank c = false := by
  intro c hc
  rw [trimEnd, List.getLast?_reverse] at hc
  exact isBlank_of_mem_head?_trimStart c hc

theorem exists_trimEnd_append (cs : List Char) : ∃ w, trimEnd cs ++ w = cs := by
  refine ⟨(cs.reverse.takeWhile isBlank).reverse, ?_⟩
  rw [trimEnd, ← List.reverse_append, List.takeWhile_append_dropWhile, List.reverse_reverse]

/-- **Trimming changes just the texts that begin or end with a blank.** -/
theorem trim_eq_self_iff {cs : List Char} :
    trim cs = cs ↔ (∀ c ∈ cs.head?, isBlank c = false) ∧ ∀ c ∈ cs.getLast?, isBlank c = false := by
  refine ⟨fun h => ⟨fun c hc => ?_, fun c hc => ?_⟩, fun h => trim_eq_self h.1 h.2⟩
  · obtain ⟨w, hw⟩ := exists_trimEnd_append (trimStart cs)
    have hStart : c ∈ (trimStart cs).head? := by
      rw [← hw, List.head?_append, ← trim, h, Option.mem_def.mp hc]
      rfl
    exact isBlank_of_mem_head?_trimStart c hStart
  · rw [← h] at hc
    exact isBlank_of_mem_getLast?_trimEnd c hc

end Stencil.Text
