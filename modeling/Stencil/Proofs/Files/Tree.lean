import Mathlib.Data.List.Basic
import Stencil.Files.Tree
import Stencil.Proofs.Files.Name

/-!
# Writing to trees of files

A file is written after the directories around it are created.

* `FileTree.node?_set`: what the paths of a tree lead to after one of them was set.
* `FileTree.addDirectories_fst`, `FileTree.node?_addDirectories`: when all directories of a way
  are there, and what the paths lead to then.
* `FileTree.Admits`: trees in which a file can be written.
* `FileTree.Puts`: a tree that became another one by a text in a file and nothing else than the
  directories around it.
* `FileTree.Admits.exists_puts`, `FileTree.admits_of_writeText?`: writing succeeds in the trees
  that admit the file, and only in these.
-/

namespace Stencil.FileTree

open FileName

/-! ## Nodes -/

variable {t : FileTree} {here path parts : List String} {n : FileNode}

theorem lookup_filter_ne {other : List String} (h : other ≠ path)
    (nodes : List (List String × FileNode)) :
    (nodes.filter fun e => e.1 ≠ path).lookup other = nodes.lookup other := by
  induction nodes with
  | nil => rfl
  | cons e nodes ih =>
    obtain ⟨key, node⟩ := e
    by_cases hKey : key = path
    · rw [List.filter_cons_of_neg (by simpa using hKey), ih, List.lookup_cons,
        beq_eq_false_iff_ne.mpr (hKey ▸ h)]
    · rw [List.filter_cons_of_pos (by simpa using hKey), List.lookup_cons, List.lookup_cons, ih]

theorem node?_set (h : path ≠ []) (other : List String) :
    (t.set path n).node? other = if other = path then some n else t.node? other := by
  rw [node?, node?, set]
  by_cases hRoot : other = []
  · rw [if_pos hRoot, if_neg (hRoot ▸ h.symm), if_pos hRoot]
  · rw [if_neg hRoot, if_neg hRoot]
    by_cases hOther : other = path
    · rw [if_pos hOther, hOther, List.lookup_cons_self]
    · rw [if_neg hOther, List.lookup_cons, beq_eq_false_iff_ne.mpr hOther]
      exact lookup_filter_ne hOther t.nodes

@[simp] theorem unwritable_set : (t.set path n).unwritable = t.unwritable := rfl

@[simp] theorem unreadable_set : (t.set path n).unreadable = t.unreadable := rfl

theorem ne_nil_of_node? (h : t.node? path ≠ some .directory) : path ≠ [] := by
  rintro rfl
  exact h rfl

/-! ## Directories -/

/-- Whether there is a directory at a path, or one can be created. -/
def OffersDirectory (t : FileTree) (path : List String) : Prop :=
  t.node? path = some .directory ∨ t.node? path = none ∧ path ∉ t.unwritable

instance (t : FileTree) (path : List String) : Decidable (t.OffersDirectory path) :=
  inferInstanceAs (Decidable (t.node? path = some .directory ∨
    t.node? path = none ∧ path ∉ t.unwritable))

theorem OffersDirectory.of_set (h : path ≠ []) (hFree : t.OffersDirectory path)
    {other : List String} :
    (t.set path .directory).OffersDirectory other ↔ t.OffersDirectory other := by
  rw [OffersDirectory, node?_set h, unwritable_set]
  by_cases hOther : other = path
  · rw [if_pos hOther, hOther]
    exact iff_of_true (.inl rfl) hFree
  · rw [if_neg hOther, OffersDirectory]

/-- **All directories of a way are there** in the end when each is or can be created. -/
theorem addDirectories_fst (t : FileTree) (here parts : List String) :
    (t.addDirectories here parts).1 = true ↔
      ∀ path ∈ passed here parts, t.OffersDirectory path := by
  fun_induction addDirectories t here parts with
  | case1 t here => simp [passed]
  | case2 t here part parts next hNode ih =>
    rw [ih, passed, List.forall_mem_cons]
    exact (and_iff_right (.inl hNode)).symm
  | case3 t here part parts next hNode hDenied =>
    rw [passed, List.forall_mem_cons]
    refine iff_of_false Bool.false_ne_true fun h => ?_
    rcases h.1 with hDirectory | ⟨-, hFree⟩
    · cases hNode.symm.trans hDirectory
    · exact hFree (List.contains_iff_mem.mp hDenied)
  | case4 t here part parts next hNode hFree ih =>
    have hOffers : t.OffersDirectory next :=
      .inr ⟨hNode, fun hMem => hFree (List.contains_iff_mem.mpr hMem)⟩
    have hNext : next ≠ [] := ne_nil_of_node? (by rw [hNode]; exact nofun)
    rw [ih, passed, List.forall_mem_cons]
    simp only [OffersDirectory.of_set hNext hOffers]
    exact (and_iff_right hOffers).symm
  | case5 t here part parts next n hDirectory hNode =>
    rw [passed, List.forall_mem_cons]
    refine iff_of_false Bool.false_ne_true fun h => ?_
    rcases h.1 with hOther | ⟨hNone, -⟩
    · exact hDirectory (Option.some.inj (hNode.symm.trans hOther))
    · cases hNode.symm.trans hNone

/-- **Creating directories changes nothing else**: then all paths of the way lead to directories,
and the others where they did. -/
theorem node?_addDirectories (h : (t.addDirectories here parts).1 = true) (other : List String) :
    (t.addDirectories here parts).2.node? other =
      if other ∈ passed here parts then some .directory else t.node? other := by
  fun_induction addDirectories t here parts with
  | case1 t here => rw [passed, if_neg List.not_mem_nil]
  | case2 t here part parts next hNode ih =>
    have hPassed : passed here (part :: parts) = next :: passed next parts := rfl
    rw [ih h, hPassed]
    by_cases hOther : other = next
    · rw [hOther, hNode, ite_self, if_pos List.mem_cons_self]
    · simp only [List.mem_cons, hOther, false_or]
  | case4 t here part parts next hNode hFree ih =>
    have hNext : next ≠ [] := ne_nil_of_node? (by rw [hNode]; exact nofun)
    have hPassed : passed here (part :: parts) = next :: passed next parts := rfl
    rw [ih h, hPassed, node?_set hNext]
    by_cases hOther : other = next
    · rw [if_pos hOther, hOther, ite_self, if_pos List.mem_cons_self]
    · simp only [List.mem_cons, hOther, false_or, if_false]
  | _ => cases h

theorem addDirectories_snd_eq (t : FileTree) (here parts : List String) :
    (t.addDirectories here parts).2 =
      { t with nodes := (t.addDirectories here parts).2.nodes } := by
  fun_induction addDirectories t here parts with
  | case2 t here part parts next hNode ih => exact ih
  | case4 t here part parts next hNode hFree ih => exact ih
  | _ => rfl

theorem walk?_eq (hHere : t.node? here = some .directory)
    (h : ∀ path ∈ passed here parts.dropLast, t.node? path = some .directory) :
    t.walk? here parts = some (parts.foldl step here) := by
  induction parts generalizing here with
  | nil => rfl
  | cons part parts ih =>
    rw [walk?, if_pos hHere, List.foldl_cons]
    cases parts with
    | nil => rfl
    | cons part' parts =>
      rw [List.dropLast_cons_of_ne_nil (List.cons_ne_nil _ _), passed] at h
      obtain ⟨hStep, hRest⟩ := List.forall_mem_cons.mp h
      exact ih hStep hRest

/-! ## Files -/

/-- Whether a file can be written: its name is none of a directory, and there is neither a
directory at its place nor will there be one; the directories around it are there or can be
created. -/
structure Admits (t : FileTree) (name : String) : Prop where
  namesFile : namesDirectory name = false
  noDirectory : t.node? (place name) ≠ some .directory
  apart : place name ∉ directories name
  writable : place name ∉ t.unwritable
  directories : ∀ path ∈ directories name, t.OffersDirectory path

/-- Whether a tree became another one when a text was put in a file: the file holds the text,
and nothing else differs, but that directories around the file are there that were not. -/
structure Puts (before : FileTree) (name text : String) (after : FileTree) : Prop where
  place : after.resolve? name = some (place name)
  text : after.node? (FileName.place name) = some (.file text)
  others : ∀ path, path ≠ FileName.place name → after.node? path = before.node? path ∨
    path ∈ FileName.directories name ∧ before.node? path = none ∧
      after.node? path = some .directory
  unreadable : after.unreadable = before.unreadable
  unwritable : after.unwritable = before.unwritable

def prepared (t : FileTree) (name : String) : Bool × FileTree :=
  t.addDirectories [] (FileName.parts name).dropLast

variable {name text : String} {after : FileTree}

theorem resolve?_of_directories (hName : name ≠ "")
    (h : ∀ path ∈ FileName.directories name, t.node? path = some .directory) :
    t.resolve? name = some (place name) := by
  rw [resolve?, if_neg hName, walk?_eq rfl h, place]

theorem node?_prepared (h : (t.prepared name).1 = true) (other : List String) :
    (t.prepared name).2.node? other =
      if other ∈ FileName.directories name then some .directory else t.node? other :=
  node?_addDirectories h other

theorem resolve?_prepared (hName : name ≠ "") (h : (t.prepared name).1 = true) :
    (t.prepared name).2.resolve? name = some (place name) :=
  resolve?_of_directories hName fun path hPath => by rw [node?_prepared h, if_pos hPath]

theorem unreadable_prepared (t : FileTree) (name : String) :
    (t.prepared name).2.unreadable = t.unreadable := by
  rw [prepared, addDirectories_snd_eq]

theorem unwritable_prepared (t : FileTree) (name : String) :
    (t.prepared name).2.unwritable = t.unwritable := by
  rw [prepared, addDirectories_snd_eq]

namespace Admits

variable (h : t.Admits name)

include h

theorem ne_empty : name ≠ "" := by
  rintro rfl
  exact h.noDirectory rfl

theorem place_ne_nil : place name ≠ [] := ne_nil_of_node? h.noDirectory

theorem prepared_fst : (t.prepared name).1 = true :=
  (addDirectories_fst t [] _).mpr h.directories

theorem writeText?_prepared (text : String) : (t.prepared name).2.writeText? name text =
    some ((t.prepared name).2.set (place name) (.file text)) := by
  have hPlace : (t.prepared name).2.node? (place name) ≠ some .directory := by
    rw [node?_prepared h.prepared_fst, if_neg h.apart]
    exact h.noDirectory
  have hWritable : place name ∉ (t.prepared name).2.unwritable := by
    rw [unwritable_prepared]
    exact h.writable
  rw [writeText?, resolve?_prepared h.ne_empty h.prepared_fst]
  refine if_neg ?_
  simpa [h.namesFile] using ⟨hPlace, hWritable⟩

theorem puts (text : String) :
    t.Puts name text ((t.prepared name).2.set (place name) (.file text)) := by
  have hNode := node?_prepared h.prepared_fst
  constructor
  case place =>
    refine resolve?_of_directories h.ne_empty fun path hPath => ?_
    have hApart : path ≠ place name := fun hSame => h.apart (hSame ▸ hPath)
    rw [node?_set h.place_ne_nil, if_neg hApart, hNode, if_pos hPath]
  case text => rw [node?_set h.place_ne_nil, if_pos rfl]
  case others =>
    intro path hPath
    rw [node?_set h.place_ne_nil, if_neg hPath, hNode]
    by_cases hPassed : path ∈ FileName.directories name
    · rw [if_pos hPassed]
      rcases h.directories path hPassed with hOld | ⟨hNew, -⟩
      · exact .inl hOld.symm
      · exact .inr ⟨hPassed, hNew, rfl⟩
    · rw [if_neg hPassed]
      exact .inl rfl
  case unreadable => rw [unreadable_set, unreadable_prepared]
  case unwritable => rw [unwritable_set, unwritable_prepared]

/-- **A file is written** where the tree admits it, and then nothing else has changed. -/
theorem exists_puts (text : String) :
    ∃ after, (t.prepared name).2.writeText? name text = some after ∧ t.Puts name text after :=
  ⟨_, h.writeText?_prepared text, h.puts text⟩

end Admits

theorem admits_of_writeText? (hThere : (t.prepared name).1 = true)
    (hWrite : (t.prepared name).2.writeText? name text = some after) : t.Admits name := by
  have hName : name ≠ "" := by
    rintro rfl
    cases hWrite
  rw [writeText?, resolve?_prepared hName hThere] at hWrite
  obtain ⟨hCan, -⟩ := Option.ite_none_left_eq_some.mp hWrite
  simp only [Bool.or_eq_true, decide_eq_true_eq, List.contains_iff_mem, not_or,
    Bool.not_eq_true] at hCan
  obtain ⟨⟨hFile, hPlace⟩, hWritable⟩ := hCan
  rw [node?_prepared hThere] at hPlace
  refine ⟨hFile, ?_, ?_, ?_, (addDirectories_fst t [] _).mp hThere⟩
  · by_cases hPassed : place name ∈ FileName.directories name
    · rw [if_pos hPassed] at hPlace
      exact absurd rfl hPlace
    · rwa [if_neg hPassed] at hPlace
  · exact fun hPassed => hPlace (if_pos hPassed)
  · rwa [unwritable_prepared] at hWritable

end Stencil.FileTree
