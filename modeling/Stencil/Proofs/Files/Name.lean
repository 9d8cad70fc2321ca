import Mathlib.Data.List.Basic
import Mathlib.Data.List.TakeWhile
import Stencil.Files.Name

/-!
# Places of files

A name leads through directories to a place.

* `FileName.place`: the path a name leads to.
* `FileName.directories`: the paths of the directories it leads through.
* `FileName.parts_of_parent?`: the directory a file is in has the parts of the file but for
  the last one, whatever slashes and dots stand at the ends.
-/

namespace Stencil.FileName

/-! ## Ways -/

def passed (here : List String) : List String → List (List String)
  | [] => []
  | part :: parts => step here part :: passed (step here part) parts

def place (name : String) : List String := (parts name).foldl step []

def directories (name : String) : List (List String) := passed [] (parts name).dropLast

/-! ## Texts cut at slashes -/

def partsOf (cs : List Char) : List (List Char) :=
  (splitSlashes cs).filter fun p => p ≠ [] && p ≠ ['.']

theorem parts_eq (name : String) : parts name = (partsOf name.toList).map String.ofList := rfl

theorem exists_splitSlashes_eq_cons (cs : List Char) : ∃ p ps, splitSlashes cs = p :: ps := by
  cases cs with
  | nil => exact ⟨[], [], rfl⟩
  | cons c cs =>
    rw [splitSlashes]
    split
    · exact ⟨_, _, rfl⟩
    · split <;> exact ⟨_, _, rfl⟩

theorem splitSlashes_append (a b : List Char) :
    splitSlashes (a ++ '/' :: b) = splitSlashes a ++ splitSlashes b := by
  induction a with
  | nil => rfl
  | cons c a ih =>
    obtain ⟨p, ps, hSplit⟩ := exists_splitSlashes_eq_cons a
    rw [List.cons_append, splitSlashes, splitSlashes, ih, hSplit]
    by_cases hc : c = '/'
    · rw [if_pos hc, if_pos hc]
      rfl
    · rw [if_neg hc, if_neg hc]
      rfl

theorem splitSlashes_of_notMem {cs : List Char} (h : '/' ∉ cs) : splitSlashes cs = [cs] := by
  induction cs with
  | nil => rfl
  | cons c cs ih =>
    rw [List.mem_cons, not_or] at h
    rw [splitSlashes, if_neg (Ne.symm h.1), ih h.2]

theorem partsOf_append (a b : List Char) : partsOf (a ++ '/' :: b) = partsOf a ++ partsOf b := by
  rw [partsOf, splitSlashes_append, List.filter_append, partsOf, partsOf]

theorem partsOf_append_slash (cs : List Char) : partsOf (cs ++ ['/']) = partsOf cs := by
  rw [partsOf_append]
  exact List.append_nil _

theorem partsOf_of_notMem {cs : List Char} (h : '/' ∉ cs) (hEmpty : cs ≠ []) (hDot : cs ≠ ['.']) :
    partsOf cs = [cs] := by
  rw [partsOf, splitSlashes_of_notMem h, List.filter_cons_of_pos, List.filter_nil]
  simp [hEmpty, hDot]

/-! ## Slashes at the end -/

variable {n : Nat} {cs : List Char}

theorem partsOf_trimEndSlashes (n : Nat) (cs : List Char) :
    partsOf (trimEndSlashes n cs).reverse = partsOf cs.reverse := by
  fun_induction trimEndSlashes n cs with
  | case1 cs => rfl
  | case2 n => rfl
  | case3 n cs h ih => rw [ih, List.reverse_cons, partsOf_append_slash]
  | case4 n cs ih =>
    rw [ih, List.reverse_cons, partsOf_append_slash, List.reverse_cons, List.reverse_cons,
      List.append_assoc, List.singleton_append, partsOf_append]
    exact (List.append_nil _).symm
  | case5 n cs h₁ h₂ h₃ => rfl

/-- Whether a text, given from its end, ends with a part that counts, if it has one. -/
def EndsWithPart (cs : List Char) : Prop :=
  partsOf cs.reverse = [] ∨ (cs.head? ≠ some '/' ∧ ∀ r, cs ≠ '.' :: '/' :: r)

theorem endsWithPart_trimEndSlashes (h : cs.length ≤ n) : EndsWithPart (trimEndSlashes n cs) := by
  fun_induction trimEndSlashes n cs with
  | case1 cs =>
    obtain rfl := List.eq_nil_of_length_eq_zero (Nat.le_zero.mp h)
    exact .inl rfl
  | case2 n => exact .inl rfl
  | case3 n cs hne ih => exact ih (Nat.le_of_succ_le_succ h)
  | case4 n cs ih => exact ih (Nat.le_of_succ_le_succ h)
  | case5 n cs h₁ h₂ h₃ =>
    refine .inr ⟨fun hHead => ?_, fun r hr => h₃ r hr⟩
    obtain ⟨r, hr⟩ : ∃ r, cs = '/' :: r := by
      cases cs with
      | nil => cases hHead
      | cons c r => exact ⟨r, congrArg (· :: r) (Option.some.inj hHead)⟩
    exact h₂ r hr

/-- Without its last part a text has the other ones. -/
theorem partsOf_dropWhile (h : EndsWithPart cs) (hParts : partsOf cs.reverse ≠ []) :
    partsOf (cs.dropWhile (· != '/')).reverse = (partsOf cs.reverse).dropLast := by
  obtain ⟨hSlash, hDot⟩ := h.resolve_left hParts
  have hSplit := (List.takeWhile_append_dropWhile (p := (· != '/')) (l := cs)).symm
  have hNo : '/' ∉ cs.takeWhile (· != '/') := fun hMem => by
    simpa using List.mem_takeWhile_imp hMem
  have hHead := List.head?_dropWhile_not (· != '/') cs
  generalize cs.takeWhile (· != '/') = last at hSplit hNo
  generalize cs.dropWhile (· != '/') = rest at hSplit hHead ⊢
  have hNo' : '/' ∉ last.reverse := fun hMem => hNo (List.mem_reverse.mp hMem)
  subst hSplit
  cases rest with
  | nil =>
    -- one part at most, and none without it
    rw [List.append_nil, partsOf, partsOf, splitSlashes_of_notMem hNo', List.filter_singleton]
    cases decide (last.reverse ≠ []) && decide (last.reverse ≠ ['.']) <;> rfl
  | cons c r =>
    obtain rfl : c = '/' := by simpa using hHead
    have hEmpty : last.reverse ≠ [] := fun hNil =>
      hSlash (by rw [List.reverse_eq_nil_iff.mp hNil]; rfl)
    have hPoint : last.reverse ≠ ['.'] := fun hOne =>
      hDot r (by rw [List.reverse_eq_iff.mp hOne]; rfl)
    rw [List.reverse_cons, partsOf_append_slash, List.reverse_append, List.reverse_cons,
      List.append_assoc, List.singleton_append, partsOf_append,
      partsOf_of_notMem hNo' hEmpty hPoint, List.dropLast_concat]

/-- **The directory of a file** has the parts of the file but for the last one. -/
theorem parts_of_parent? {name directory : String} (h : parent? name = some directory) :
    parts directory = (parts name).dropLast := by
  rw [parent?] at h
  split at h
  · cases h
  · rename_i hParts
    obtain rfl := Option.some.inj h
    have hLength : name.toList.reverse.length ≤ name.length + 1 := by
      rw [List.length_reverse, String.length_toList]
      exact Nat.le_succ _
    have hTrimmed : partsOf (trimEndSlashes (name.length + 1) name.toList.reverse).reverse =
        partsOf name.toList := by
      rw [partsOf_trimEndSlashes, List.reverse_reverse]
    have hSome : partsOf name.toList ≠ [] := by simpa [parts_eq] using hParts
    rw [parts_eq, String.toList_ofList, partsOf_trimEndSlashes,
      partsOf_dropWhile (endsWithPart_trimEndSlashes hLength) (hTrimmed ▸ hSome), hTrimmed,
      List.map_dropLast, parts_eq]

theorem parts_of_parent?_eq_none {name : String} (h : parent? name = none) : parts name = [] := by
  rw [parent?] at h
  split at h
  · rename_i hParts
    exact List.isEmpty_iff.mp hParts
  · cases h

end Stencil.FileName
