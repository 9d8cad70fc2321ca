import Mathlib.Data.List.Forall2
import Stencil.Proofs.Template.Void

/-!
# Equal contexts

Values are equal when they differ in the order of map entries and in the sign of zeros only.
Whatever a template does with a value, it does with an equal one, except that a loop over a map
takes the entries in their order.

* `Value.Matches`: all that equality of two values tells of them (`Value.matches_of_same`).
* `Value.text_eq_of_same`, `Value.isTruthy_eq_of_same`, `Value.getPath?_same`,
  `Value.items_same`: equal values are used alike, but for the items of a map.
* `Scope.Same`: two scopes in which equal values are found.
* `Part.subjects`: the values that loops run over while a part is rendered.
* `Part.piecesOf_eq_of_same`: parts that loop over no map put out the same in two such scopes.
* `Template.render_eq_of_same`: the same for the output of a template.
-/

namespace Stencil

/-! ## Numbers -/

namespace Number

variable {a b : Number}

theorem same_finite {negative other : Bool} {m n : Magnitude}
    (h : (finite negative m).same (finite other n) = true) :
    m = n ∧ (negative = other ∨ m.mantissa = 0) := by
  simpa only [same, Bool.and_eq_true, Bool.or_eq_true, beq_iff_eq] using h

theorem text_eq_of_same (h : a.same b = true) : a.text = b.text := by
  cases a with
  | nan => cases h
  | infinite negative =>
    cases b with
    | infinite other => rw [eq_of_beq h]
    | nan => cases h
    | finite other n => cases h
  | finite negative m =>
    cases b with
    | finite other n =>
      obtain ⟨rfl, rfl | hZero⟩ := same_finite h
      · rfl
      · rw [text, text, if_pos hZero, if_pos hZero]
    | nan => cases h
    | infinite other => cases h

theorem isTruthy_eq_of_same (h : a.same b = true) :
    (Value.number a).isTruthy = (Value.number b).isTruthy := by
  cases a with
  | nan => cases h
  | infinite negative =>
    cases b with
    | infinite other => rfl
    | nan => cases h
    | finite other n => cases h
  | finite negative m =>
    cases b with
    | finite other n =>
      obtain ⟨rfl, -⟩ := same_finite h
      rfl
    | nan => cases h
    | infinite other => cases h

theorem same_ofNat (n : Nat) : (ofNat n).same (ofNat n) = true := by
  rw [ofNat, ofRatio]
  cases Magnitude.round? n 1 <;> simp [ofMagnitude, same]

end Number

/-! ## Lists in step -/

/-- Lists in step have items in step at each position, or none in both. -/
theorem rel_getElem?_of_forall₂ {α β : Type} {R : α → β → Prop} {xs : List α} {ys : List β}
    (h : List.Forall₂ R xs ys) (i : Nat) : Option.Rel R xs[i]? ys[i]? := by
  induction h generalizing i with
  | nil => exact .none
  | cons hHead _ ih =>
    cases i with
    | zero => exact .some hHead
    | succ i => exact ih i

/-! ## Values -/

namespace Value

/-- What two equal values have in common. -/
inductive Matches : Value → Value → Prop
  | null : Matches null null
  | bool (b : Bool) : Matches (bool b) (bool b)
  | number {a b : Number} : a.same b = true → Matches (number a) (number b)
  | string (s : String) : Matches (string s) (string s)
  | list {vs ws : List Value} : sameItems vs ws = true → Matches (list vs) (list ws)
  | map {es fs : Entries Value} :
      (∀ key, Option.Rel (fun v w => v.same w = true) (es.lookup key) (fs.lookup key)) →
      Matches (map es) (map fs)

theorem lookup_of_entriesIn {es fs : Entries Value} (h : entriesIn es fs = true) {key : String}
    {v : Value} (hv : es.lookup key = some v) :
    ∃ w, fs.lookup key = some w ∧ v.same w = true := by
  induction es with
  | nil => cases hv
  | cons e es ih =>
    obtain ⟨k, u⟩ := e
    rw [entriesIn, Bool.and_eq_true, entryIn, Option.any_eq_true] at h
    rw [List.lookup_cons] at hv
    cases hKey : key == k with
    | true =>
      rw [hKey] at hv
      obtain rfl := Option.some.inj hv
      rw [eq_of_beq hKey]
      exact h.1
    | false =>
      rw [hKey] at hv
      exact ih h.2 hv

theorem lookup_rel_of_same {es fs : Entries Value} (h : (map es).same (map fs) = true)
    (key : String) :
    Option.Rel (fun v w => v.same w = true) (es.lookup key) (fs.lookup key) := by
  rw [same, Bool.and_eq_true, List.all_eq_true] at h
  obtain ⟨hIn, hKeys⟩ := h
  cases hv : es.lookup key with
  | some v =>
    obtain ⟨w, hw, hSame⟩ := lookup_of_entriesIn hIn hv
    rw [hw]
    exact .some hSame
  | none =>
    -- an entry of the second map has a key of the first one
    cases hw : fs.lookup key with
    | none => exact .none
    | some w =>
      obtain ⟨before, after, rfl, -⟩ := List.lookup_eq_some_iff.mp hw
      have hSome := hKeys (key, w) (List.mem_append_right before List.mem_cons_self)
      rw [hv] at hSome
      cases hSome

/-- **Equal values match**: they are of one kind, and so are their parts. -/
theorem matches_of_same {v w : Value} (h : v.same w = true) : v.Matches w := by
  cases v <;> cases w <;> try cases h
  case null.null => exact .null
  case bool.bool => exact eq_of_beq h ▸ .bool _
  case number.number => exact .number h
  case string.string => exact eq_of_beq h ▸ .string _
  case list.list => exact .list h
  case map.map => exact .map (lookup_rel_of_same h)

theorem same_string (s : String) : (string s).same (string s) = true := by
  rw [same]
  exact beq_self_eq_true s

theorem forall₂_of_sameItems {vs ws : List Value} (h : sameItems vs ws = true) :
    List.Forall₂ (fun v w => v.same w = true) vs ws := by
  induction vs generalizing ws with
  | nil =>
    cases ws with
    | nil => exact .nil
    | cons w ws => cases h
  | cons v vs ih =>
    cases ws with
    | nil => cases h
    | cons w ws =>
      rw [sameItems, Bool.and_eq_true] at h
      exact .cons h.1 (ih h.2)

/-! ## Uses of equal values -/

mutual

/-- **Equal values are inserted in one form.** -/
theorem text_eq_of_same : ∀ {v w : Value}, v.same w = true → v.text = w.text
  | null, w, h => by cases matches_of_same h; rfl
  | bool _, w, h => by cases matches_of_same h; rfl
  | number _, w, h => by
    cases matches_of_same h with
    | number hNumber => rw [text, text, Number.text_eq_of_same hNumber]
  | string _, w, h => by cases matches_of_same h; rfl
  | list vs, w, h => by
    cases matches_of_same h with
    | list hItems => rw [text, text, texts_eq_of_same hItems]
  | map _, w, h => by cases matches_of_same h; rfl

theorem texts_eq_of_same : ∀ {vs ws : List Value}, sameItems vs ws = true → texts vs = texts ws
  | [], ws, h => by
    cases ws with
    | nil => rfl
    | cons w ws => cases h
  | v :: vs, ws, h => by
    cases ws with
    | nil => cases h
    | cons w ws =>
      rw [sameItems, Bool.and_eq_true] at h
      rw [texts, texts, text_eq_of_same h.1, texts_eq_of_same h.2]

end

variable {v w : Value}

theorem isTruthy_eq_of_same (h : v.same w = true) : v.isTruthy = w.isTruthy := by
  cases matches_of_same h with
  | number hNumber => exact Number.isTruthy_eq_of_same hNumber
  | _ => rfl

/-- **A key names equal parts** of equal values, or none in both. -/
theorem get?_same (h : v.same w = true) (key : String) :
    Option.Rel (fun v w => v.same w = true) (v.get? key) (w.get? key) := by
  cases matches_of_same h with
  | map hEntries => exact hEntries key
  | list hItems =>
    rw [get?, get?]
    cases listIndex? key with
    | none => exact .none
    | some i => exact rel_getElem?_of_forall₂ (forall₂_of_sameItems hItems) i
  | _ => exact .none

/-- Keys lead to equal values; where they lead to none, the empty string stands in both. -/
theorem getPath?_same (h : v.same w = true) (keys : List String) :
    ((v.getPath? keys).getD (string "")).same ((w.getPath? keys).getD (string "")) = true := by
  induction keys generalizing v w with
  | nil => exact h
  | cons key keys ih =>
    have hKey := get?_same h key
    rw [getPath?, getPath?]
    generalize v.get? key = x, w.get? key = y at hKey ⊢
    cases hKey with
    | none => exact same_string ""
    | some hPart => exact ih hPart

/-- **The items of equal values are equal in turn**, but for those of maps. -/
theorem items_same (h : v.same w = true) (hMap : ∀ es, v ≠ map es) :
    List.Forall₂ (fun v w => v.same w = true) v.items w.items := by
  cases matches_of_same h with
  | list hItems => exact forall₂_of_sameItems hItems
  | string s =>
    rw [items, List.forall₂_map_left_iff, List.forall₂_map_right_iff, List.forall₂_same]
    exact fun c _ => same_string _
  | map _ => exact absurd rfl (hMap _)
  | _ => exact .nil

end Value

/-! ## Scopes with equal values -/

namespace Scope

/-- Whether the variables of two scopes have equal values, those that are missing being
empty. -/
def Same (s s' : Scope) : Prop := ∀ name, (s.valueOf name).same (s'.valueOf name) = true

namespace Same

variable {s s' : Scope}

theorem root {c d : Context} (h : c.same d = true) : (Scope.root c).Same (.root d) := by
  intro name
  have hName := Value.lookup_rel_of_same h name
  rw [valueOf, valueOf, lookup, lookup, Context.get?, Context.get?]
  generalize c.entries.lookup name = x, d.entries.lookup name = y at hName ⊢
  cases hName with
  | none => exact Value.same_string ""
  | some hValue => exact hValue

theorem resolve (h : s.Same s') (p : Path) : (s.resolve p).same (s'.resolve p) = true := by
  cases hSegments : p.segments with
  | nil =>
    rw [Scope.resolve, Scope.resolve, hSegments]
    exact Value.same_string ""
  | cons key keys =>
    rw [resolve_of_segments s hSegments, resolve_of_segments s' hSegments]
    exact Value.getPath?_same (h key) keys

theorem round {v w : Value} (h : s.Same s') (hItem : v.same w = true)
    (itemName indexName : String) (index : Nat) :
    (s.round itemName v indexName index).Same (s'.round itemName w indexName index) := by
  intro name
  rw [valueOf, valueOf, lookup, lookup]
  by_cases hName : name = itemName
  · rw [if_pos hName, if_pos hName]
    exact hItem
  · rw [if_neg hName, if_neg hName]
    by_cases hIndex : name = indexName
    · rw [if_pos hIndex, if_pos hIndex]
      exact Number.same_ofNat index
    · rw [if_neg hIndex, if_neg hIndex]
      exact h name

end Same

end Scope

/-! ## Outputs -/

namespace Part

mutual

/-- The values that loops run over while a part is rendered in a scope, of all loops that are
reached: in each round, and in the branches that are taken. -/
def subjects : Part → Scope → List Value
  | literal _, _ => []
  | escape _, _ => []
  | interpolate _, _ => []
  | loop collection itemName indexName body, scope =>
    scope.resolve collection :: (scope.resolve collection).items.zipIdx.flatMap fun (item, i) =>
      subjectsOf body (.round scope itemName item indexName i)
  | conditional condition thenBranch elseBranch, scope =>
    if (scope.resolve condition).isTruthy then subjectsOf thenBranch scope
    else subjectsOfBranch elseBranch scope
termination_by structural p => p

def subjectsOf : List Part → Scope → List Value
  | [], _ => []
  | p :: ps, scope => p.subjects scope ++ subjectsOf ps scope
termination_by structural ps => ps

def subjectsOfBranch : Option (List Part) → Scope → List Value
  | none, _ => []
  | some ps, scope => subjectsOf ps scope
termination_by structural b => b

end

/-- **Parts that loop over no map put out the same in scopes with equal values.** -/
theorem piecesOf_eq_of_same {s s' : Scope} (h : s.Same s') {ps : List Part}
    (hMap : ∀ es, .map es ∉ subjectsOf ps s) : piecesOf ps s = piecesOf ps s' := by
  induction ps using Part.listInduction generalizing s s' with
  | nil => rfl
  | literal text ps ih => exact piecesOf_cons_eq rfl (ih h hMap)
  | escape path ps ih =>
    refine piecesOf_cons_eq ?_ (ih h hMap)
    rw [pieces, pieces, Value.text_eq_of_same (h.resolve path)]
  | interpolate path ps ih =>
    refine piecesOf_cons_eq ?_ (ih h hMap)
    rw [pieces, pieces, Value.text_eq_of_same (h.resolve path)]
  | loop collection itemName indexName body ps ihBody ih =>
    refine piecesOf_cons_eq ?_ (ih h fun es hMem => hMap es (List.mem_append_right _ hMem))
    have hLoop : ∀ es, .map es ∉ subjects (.loop collection itemName indexName body) s :=
      fun es hMem => hMap es (List.mem_append_left _ hMem)
    rw [subjects] at hLoop
    -- the subject is no map, so the rounds are over equal items in turn
    have hSubject : ∀ es, s.resolve collection ≠ .map es := fun es hEq =>
      hLoop es (hEq ▸ List.mem_cons_self)
    refine flatMap_zipIdx_eq_of_forall₂ (Value.items_same (h.resolve collection) hSubject) ?_
    intro v w i hRound hItem
    refine ihBody (h.round hItem itemName indexName i) fun es hMem => ?_
    exact hLoop es (List.mem_cons_of_mem _ (List.mem_flatMap.mpr ⟨(v, i), hRound, hMem⟩))
  | conditional condition body ps ihBody ih =>
    refine piecesOf_cons_eq ?_ (ih h fun es hMem => hMap es (List.mem_append_right _ hMem))
    have hBranch : ∀ es, .map es ∉ subjects (.conditional condition body none) s :=
      fun es hMem => hMap es (List.mem_append_left _ hMem)
    rw [subjects] at hBranch
    rw [pieces, pieces, ← Value.isTruthy_eq_of_same (h.resolve condition)]
    split
    · rename_i hCondition
      rw [if_pos hCondition] at hBranch
      exact ihBody h hBranch
    · rfl
  | branches condition first second ps ihFirst ihSecond ih =>
    refine piecesOf_cons_eq ?_ (ih h fun es hMem => hMap es (List.mem_append_right _ hMem))
    have hBranch : ∀ es, .map es ∉ subjects (.conditional condition first (some second)) s :=
      fun es hMem => hMap es (List.mem_append_left _ hMem)
    rw [subjects] at hBranch
    rw [pieces, pieces, ← Value.isTruthy_eq_of_same (h.resolve condition)]
    split
    · rename_i hCondition
      rw [if_pos hCondition] at hBranch
      exact ihFirst h hBranch
    · rename_i hCondition
      rw [if_neg hCondition] at hBranch
      exact ihSecond h hBranch

end Part

namespace Template

/-- **Equal contexts put out the same unless a map is looped over**: neither the order of map
entries nor the sign of a zero shows in what a template puts out, when none of the loops that
are reached with the first context runs over a map. -/
theorem render_eq_of_same (t : Template) (c d : Context) (hSame : c.same d = true)
    (hMap : ∀ es, .map es ∉ Part.subjectsOf t.parts (.root c)) : t.render c = t.render d :=
  congrArg String.join (Part.piecesOf_eq_of_same (.root hSame) hMap)

/-- Entries in another order, at the root and within an item, and zeros of both signs; of the
branches the one with a loop over a map is not reached. -/
theorem render_eq_of_same_reordered :
    let t : Template := ⟨[.loopOver (.parse "xs") "x" [.interpolate (.parse "x.a"),
        .conditional (.parse "x.b") [.loopOver (.parse "x") "y" [.interpolate (.parse "y")]]
          (some [.escape (.parse "x.b")])]]⟩
    let zero (negative : Bool) : Value := .number (.finite negative .zero)
    let c : Context := ⟨[("n", .null), ("xs", .list [.map [("a", .string "&"), ("b", zero true)]])]⟩
    let d : Context :=
      ⟨[("xs", .list [.map [("b", zero false), ("a", .string "&")]]), ("n", .null)]⟩
    c.same d = true ∧ (∀ es, .map es ∉ Part.subjectsOf t.parts (.root c)) ∧
      t.render c = t.render d := by
  intro t zero c d
  have hSame : c.same d = true := by decide +kernel
  have hMap : ∀ es, .map es ∉ Part.subjectsOf t.parts (.root c) := by
    have hSubjects : Part.subjectsOf t.parts (.root c) =
        [.list [.map [("a", .string "&"), ("b", zero true)]]] := rfl
    intro es hMem
    rw [hSubjects, List.mem_singleton] at hMem
    cases hMem
  exact ⟨hSame, hMap, render_eq_of_same t c d hSame hMap⟩

end Template

end Stencil
