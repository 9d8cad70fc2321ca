/-!
# Entries

Keyed entries in the order in which their keys were first set.

* `Entries.insert`: sets one entry; `Entries.lookup_insert` says what is found after
  that.
* `Entries.lookup_eq_of_perm`: what is found does not hang on the order of entries with
  different keys.
* `Entries.ofPairs`: sets several, one after another.
-/

namespace Stencil

/-- Entries with keys, in order. -/
abbrev Entries (α : Type) := List (String × α)

namespace Entries

variable {α : Type}

/-- The entries with one entry set: in its place when the key is there, else at the
end. -/
def insert (key : String) (v : α) : Entries α → Entries α
  | [] => [(key, v)]
  | (k, w) :: es => if k = key then (key, v) :: es else (k, w) :: insert key v es

def ofPairs (pairs : List (String × α)) : Entries α :=
  pairs.foldl (fun es (k, v) => insert k v es) []

theorem lookup_insert (key : String) (v : α) (es : Entries α) (k : String) :
    (insert key v es).lookup k = if k = key then some v else es.lookup k := by
  induction es with
  | nil =>
    by_cases h : k = key
    · simp [insert, h]
    · simp [insert, List.lookup_cons, h, beq_eq_false_iff_ne.mpr h]
  | cons e es ih =>
    obtain ⟨k', w⟩ := e
    by_cases h' : k' = key
    · subst h'
      by_cases h : k = k'
      · simp [insert, h]
      · simp [insert, List.lookup_cons, h, beq_eq_false_iff_ne.mpr h]
    · by_cases h : k = k'
      · subst h
        simp [insert, h']
      · simp [insert, List.lookup_cons, h', beq_eq_false_iff_ne.mpr h, ih]

theorem lookup_eq_some_iff_mem {es : Entries α} (h : (es.map (·.1)).Nodup) {k : String} {v : α} :
    es.lookup k = some v ↔ (k, v) ∈ es := by
  induction es with
  | nil => simp
  | cons e es ih =>
    obtain ⟨k', w⟩ := e
    obtain ⟨hNew, hRest⟩ := List.nodup_cons.mp h
    by_cases hk : k = k'
    · subst hk
      have hNot : (k, v) ∉ es := fun hMem => hNew (List.mem_map.mpr ⟨(k, v), hMem, rfl⟩)
      simp [hNot, eq_comm]
    · simp [List.lookup_cons, hk, beq_eq_false_iff_ne.mpr hk, ih hRest]

/-- **The order of entries does not show** in what is found. -/
theorem lookup_eq_of_perm {es fs : Entries α} (h : (es.map (·.1)).Nodup) (hPerm : es.Perm fs)
    (k : String) : es.lookup k = fs.lookup k := by
  have hOther : (fs.map (·.1)).Nodup := (hPerm.map _).nodup_iff.mp h
  ext v
  rw [lookup_eq_some_iff_mem h, lookup_eq_some_iff_mem hOther, hPerm.mem_iff]

end Entries

end Stencil
