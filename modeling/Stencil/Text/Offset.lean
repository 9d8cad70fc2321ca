/-!
# Byte offsets

Offsets into a text count the bytes of its UTF-8 form.

* `byteLength`: the number of bytes of a text.
* `takeBytes`, `dropBytes`: a text cut at an offset
  (`takeBytes_append_dropBytes`).
* `slice`: the part of a text between two offsets.
* `IsBoundary`: an offset that cuts no character; after a boundary the next one is
  one character on (`IsBoundary.next_le`).
-/

namespace Stencil.Text

def byteLength : List Char → Nat
  | [] => 0
  | c :: cs => c.utf8Size + byteLength cs

/-- The characters that lie within the first `n` bytes. -/
def takeBytes : Nat → List Char → List Char
  | _, [] => []
  | n, c :: cs => if c.utf8Size ≤ n then c :: takeBytes (n - c.utf8Size) cs else []

def dropBytes : Nat → List Char → List Char
  | _, [] => []
  | n, c :: cs => if c.utf8Size ≤ n then dropBytes (n - c.utf8Size) cs else c :: cs

/-- The part of a text from offset `start` to offset `stop`. -/
def slice (start stop : Nat) (cs : List Char) : List Char :=
  takeBytes (stop - start) (dropBytes start cs)

/-- Whether an offset cuts no character: it lies at an end of the text or between two
characters. -/
def IsBoundary (cs : List Char) (offset : Nat) : Prop :=
  ∃ before after, cs = before ++ after ∧ byteLength before = offset

/-! ## Cutting -/

theorem takeBytes_append_dropBytes (n : Nat) (cs : List Char) :
    takeBytes n cs ++ dropBytes n cs = cs := by
  induction cs generalizing n with
  | nil => rfl
  | cons c cs ih =>
    by_cases h : c.utf8Size ≤ n
    · simp [takeBytes, dropBytes, h, ih]
    · simp [takeBytes, dropBytes, h]

@[simp] theorem byteLength_append (a b : List Char) :
    byteLength (a ++ b) = byteLength a + byteLength b := by
  induction a with
  | nil => simp [byteLength]
  | cons c a ih => simp [byteLength, ih, Nat.add_assoc]

@[simp] theorem takeBytes_zero (cs : List Char) : takeBytes 0 cs = [] := by
  cases cs with
  | nil => rfl
  | cons c cs => simp [takeBytes, Nat.not_le.mpr (Char.utf8Size_pos c)]

@[simp] theorem dropBytes_zero (cs : List Char) : dropBytes 0 cs = cs := by
  cases cs with
  | nil => rfl
  | cons c cs => simp [dropBytes, Nat.not_le.mpr (Char.utf8Size_pos c)]

theorem length_dropBytes_le (n : Nat) (cs : List Char) : (dropBytes n cs).length ≤ cs.length := by
  have hLength := congrArg List.length (takeBytes_append_dropBytes n cs)
  rw [List.length_append] at hLength
  omega

theorem takeBytes_byteLength_add (a b : List Char) (n : Nat) :
    takeBytes (byteLength a + n) (a ++ b) = a ++ takeBytes n b := by
  induction a with
  | nil => simp [byteLength]
  | cons c a ih => simp [byteLength, takeBytes, Nat.add_assoc, ih]

theorem dropBytes_byteLength_add (a b : List Char) (n : Nat) :
    dropBytes (byteLength a + n) (a ++ b) = dropBytes n b := by
  induction a with
  | nil => simp [byteLength]
  | cons c a ih => simp [byteLength, dropBytes, Nat.add_assoc, ih]

@[simp] theorem dropBytes_byteLength (cs : List Char) : dropBytes (byteLength cs) cs = [] := by
  have hDrop := dropBytes_byteLength_add cs [] 0
  rwa [Nat.add_zero, List.append_nil, dropBytes_zero] at hDrop

@[simp] theorem slice_self (n : Nat) (cs : List Char) : slice n n cs = [] := by
  rw [slice, Nat.sub_self, takeBytes_zero]

theorem slice_append (a b c : List Char) :
    slice (byteLength a) (byteLength a + byteLength b) (a ++ b ++ c) = b := by
  have hDrop := dropBytes_byteLength_add a (b ++ c) 0
  have hTake := takeBytes_byteLength_add b c 0
  simp only [Nat.add_zero, dropBytes_zero, takeBytes_zero, List.append_nil] at hDrop hTake
  rw [slice, List.append_assoc, hDrop, Nat.add_sub_cancel_left, hTake]

theorem slice_byteLength_add (a b : List Char) (i j : Nat) :
    slice (byteLength a + i) (byteLength a + j) (a ++ b) = slice i j b := by
  rw [slice, slice, dropBytes_byteLength_add, Nat.add_sub_add_left]

/-- Of two divisions of a text the one that comes later begins with the first part of the
other. -/
theorem exists_of_byteLength_le {a b c d : List Char} (h : a ++ b = c ++ d)
    (hle : byteLength a ≤ byteLength c) : ∃ m, c = a ++ m ∧ b = m ++ d := by
  rcases List.append_eq_append_iff.mp h with hLonger | ⟨m, hMore, hRest⟩
  · exact hLonger
  · cases m with
    | nil =>
      rw [List.append_nil] at hMore
      rw [List.nil_append] at hRest
      exact ⟨[], by rw [hMore, List.append_nil], hRest.symm⟩
    | cons x m =>
      have := x.utf8Size_pos
      rw [hMore, byteLength_append] at hle
      simp only [byteLength] at hle
      omega

/-! ## Boundaries -/

theorem byteLength_pos {cs : List Char} (h : cs ≠ []) : 0 < byteLength cs := by
  cases cs with
  | nil => exact absurd rfl h
  | cons c cs => exact Nat.lt_add_right _ (Char.utf8Size_pos c)

theorem isBoundary_zero (cs : List Char) : IsBoundary cs 0 := ⟨[], cs, rfl, rfl⟩

theorem isBoundary_byteLength (cs : List Char) : IsBoundary cs (byteLength cs) :=
  ⟨cs, [], (List.append_nil cs).symm, rfl⟩

namespace IsBoundary

variable {cs : List Char} {i j : Nat}

theorem le (h : IsBoundary cs i) : i ≤ byteLength cs := by
  obtain ⟨before, after, rfl, rfl⟩ := h
  rw [byteLength_append]
  exact Nat.le_add_right _ _

theorem split (h : IsBoundary cs i) : ∃ before, cs = before ++ dropBytes i cs ∧
    byteLength before = i := by
  obtain ⟨before, after, rfl, rfl⟩ := h
  have hDrop := dropBytes_byteLength_add before after 0
  rw [Nat.add_zero, dropBytes_zero] at hDrop
  exact ⟨before, by rw [hDrop], rfl⟩

theorem add_byteLength_dropBytes (h : IsBoundary cs i) :
    i + byteLength (dropBytes i cs) = byteLength cs := by
  obtain ⟨before, hSplit, rfl⟩ := h.split
  have hLength := congrArg byteLength hSplit
  rw [byteLength_append] at hLength
  exact hLength.symm

theorem dropBytes_add (h : IsBoundary cs i) (n : Nat) :
    dropBytes (i + n) cs = dropBytes n (dropBytes i cs) := by
  obtain ⟨before, hSplit, rfl⟩ := h.split
  have hDrop := dropBytes_byteLength_add before (dropBytes (byteLength before) cs) n
  rwa [← hSplit] at hDrop

theorem append (h : IsBoundary cs i) (more : List Char) : IsBoundary (cs ++ more) i := by
  obtain ⟨before, after, rfl, rfl⟩ := h
  exact ⟨before, after ++ more, List.append_assoc .., rfl⟩

theorem add (h : IsBoundary cs i) (hRest : IsBoundary (dropBytes i cs) j) :
    IsBoundary cs (i + j) := by
  obtain ⟨before, hSplit, rfl⟩ := h.split
  obtain ⟨more, after, hMore, rfl⟩ := hRest
  exact ⟨before ++ more, after, by rw [List.append_assoc, ← hMore, ← hSplit],
    byteLength_append _ _⟩

/-- Between a boundary and a later one the text goes on from the first. -/
theorem sub (hi : IsBoundary cs i) (hj : IsBoundary cs j) (hle : i ≤ j) :
    IsBoundary (dropBytes i cs) (j - i) := by
  obtain ⟨before, hSplit, rfl⟩ := hi.split
  obtain ⟨longer, after, hLonger, rfl⟩ := hj
  obtain ⟨more, rfl, hRest⟩ := exists_of_byteLength_le (hSplit.symm.trans hLonger) hle
  exact ⟨more, after, hRest, by rw [byteLength_append, Nat.add_sub_cancel_left]⟩

/-- **One character on** is the next boundary. -/
theorem next {c : Char} {rest : List Char} (h : IsBoundary cs i)
    (hDrop : dropBytes i cs = c :: rest) : IsBoundary cs (i + c.utf8Size) :=
  h.add (hDrop ▸ ⟨[c], rest, rfl, rfl⟩)

theorem next_le {c : Char} {rest : List Char} (hi : IsBoundary cs i) (hj : IsBoundary cs j)
    (hlt : i < j) (hDrop : dropBytes i cs = c :: rest) : i + c.utf8Size ≤ j := by
  have hSub := hi.sub hj (Nat.le_of_lt hlt)
  rw [hDrop] at hSub
  obtain ⟨before, after, hSplit, hLength⟩ := hSub
  cases before with
  | nil =>
    simp only [byteLength] at hLength
    omega
  | cons d before =>
    obtain ⟨rfl, -⟩ := List.cons.inj hSplit
    simp only [byteLength] at hLength
    omega

theorem dropBytes_next {c : Char} {rest : List Char} (h : IsBoundary cs i)
    (hDrop : dropBytes i cs = c :: rest) : dropBytes (i + c.utf8Size) cs = rest := by
  obtain ⟨before, hSplit, rfl⟩ := h.split
  have hCut := dropBytes_byteLength_add (before ++ [c]) rest 0
  rw [Nat.add_zero, dropBytes_zero, byteLength_append, List.append_assoc] at hCut
  rw [hSplit, hDrop]
  exact hCut

theorem slice_append_dropBytes (hi : IsBoundary cs i) (hle : i ≤ j) :
    slice i j cs ++ dropBytes j cs = dropBytes i cs := by
  have hDrop := hi.dropBytes_add (j - i)
  rw [Nat.add_sub_cancel' hle] at hDrop
  rw [hDrop]
  exact takeBytes_append_dropBytes (j - i) (dropBytes i cs)

theorem slice_byteLength (hi : IsBoundary cs i) : slice i (byteLength cs) cs = dropBytes i cs := by
  have hAll := hi.slice_append_dropBytes hi.le
  rwa [dropBytes_byteLength, List.append_nil] at hAll

theorem byteLength_slice (hi : IsBoundary cs i) (hj : IsBoundary cs j) (hle : i ≤ j) :
    byteLength (slice i j cs) = j - i := by
  have hLength := congrArg byteLength (hi.slice_append_dropBytes hle)
  have hBefore := hi.add_byteLength_dropBytes
  have hAfter := hj.add_byteLength_dropBytes
  rw [byteLength_append] at hLength
  omega

/-- Two boundaries divide the text into what is before, between and after them. -/
theorem exists_slice (hi : IsBoundary cs i) (hj : IsBoundary cs j) (hle : i ≤ j) :
    ∃ before, cs = before ++ slice i j cs ++ dropBytes j cs ∧ byteLength before = i ∧
      byteLength (before ++ slice i j cs) = j := by
  obtain ⟨before, hSplit, hBefore⟩ := hi.split
  refine ⟨before, ?_, hBefore, ?_⟩
  · rw [List.append_assoc, hi.slice_append_dropBytes hle, ← hSplit]
  · rw [byteLength_append, hi.byteLength_slice hj hle]
    omega

theorem slice_append_slice {k : Nat} (hi : IsBoundary cs i) (hj : IsBoundary cs j) (hij : i ≤ j)
    (hjk : j ≤ k) : slice i j cs ++ slice j k cs = slice i k cs := by
  refine (List.append_left_inj (dropBytes k cs)).mp ?_
  rw [List.append_assoc, hj.slice_append_dropBytes hjk, hi.slice_append_dropBytes hij,
    hi.slice_append_dropBytes (Nat.le_trans hij hjk)]

theorem slice_append (hi : IsBoundary cs i) (hj : IsBoundary cs j) (hle : i ≤ j)
    (more : List Char) : slice i j (cs ++ more) = slice i j cs := by
  obtain ⟨before, hText, hBefore, hStop⟩ := hi.exists_slice hj hle
  have hSlice := Text.slice_append before (slice i j cs) (dropBytes j cs ++ more)
  rw [← byteLength_append, hStop, hBefore, ← List.append_assoc, ← hText] at hSlice
  exact hSlice

theorem eq_byteLength (h : IsBoundary cs i) (hDrop : dropBytes i cs = []) :
    i = byteLength cs := by
  have hLength := h.add_byteLength_dropBytes
  rw [hDrop] at hLength
  exact hLength

end IsBoundary

end Stencil.Text
