import Mathlib.Data.List.Forall2
import Stencil.Proofs.Template.FreeNames

/-!
# Void values

Null and the empty string are void: a template shows nothing of them, and what is not there is
the empty string to it.  So it does not tell which of the three it was given.

* `Value.Alike`: two values that differ in their void values only, at whatever depth.
  Alike values are used alike: `Value.Alike.text_eq`, `Value.Alike.isTruthy_eq`,
  `Value.Alike.items`, `Value.Alike.getPath?`.
* `Scope.Alike`: two scopes in which alike values are found, when what is missing counts as the
  empty string; the rounds of a loop over alike values are alike (`Scope.Alike.round`).
* `Part.piecesOf_eq_of_alike`: parts put out the same in alike scopes.
* `Entries.Varies`: entries that differ in void values only, some of which may be missing.
* `Template.render_eq_of_varies`: the same for the output of a template.
-/

namespace Stencil

/-! ## Values without null -/

namespace Value

def IsVoid (v : Value) : Prop := v = null ∨ v = string ""

mutual

/-- The value with the empty string in place of null, at any depth. -/
def withoutNull : Value → Value
  | null => string ""
  | bool b => bool b
  | number n => number n
  | string s => string s
  | list vs => list (itemsWithoutNull vs)
  | map es => map (entriesWithoutNull es)
termination_by structural v => v

def itemsWithoutNull : List Value → List Value
  | [] => []
  | v :: vs => v.withoutNull :: itemsWithoutNull vs
termination_by structural vs => vs

def entriesWithoutNull : Entries Value → Entries Value
  | [] => []
  | e :: es => entryWithoutNull e :: entriesWithoutNull es
termination_by structural es => es

def entryWithoutNull : String × Value → String × Value
  | (k, v) => (k, v.withoutNull)
termination_by structural e => e

end

theorem itemsWithoutNull_eq (vs : List Value) : itemsWithoutNull vs = vs.map withoutNull := by
  induction vs with
  | nil => rfl
  | cons v vs ih => rw [itemsWithoutNull, ih, List.map_cons]

theorem lookup_entriesWithoutNull (es : Entries Value) (key : String) :
    (entriesWithoutNull es).lookup key = (es.lookup key).map withoutNull := by
  induction es with
  | nil => rfl
  | cons e es ih =>
    obtain ⟨k, v⟩ := e
    rw [entriesWithoutNull, entryWithoutNull, List.lookup_cons, List.lookup_cons, ih]
    cases key == k <;> rfl

theorem map_snd_entriesWithoutNull (es : Entries Value) :
    (entriesWithoutNull es).map (·.2) = (es.map (·.2)).map withoutNull := by
  induction es with
  | nil => rfl
  | cons e es ih =>
    obtain ⟨k, v⟩ := e
    rw [entriesWithoutNull, entryWithoutNull, List.map_cons, ih, List.map_cons, List.map_cons]

/-! ## Uses of a value -/

mutual

theorem text_withoutNull : ∀ v : Value, v.withoutNull.text = v.text
  | null => rfl
  | bool _ => rfl
  | number _ => rfl
  | string _ => rfl
  | list vs => by rw [withoutNull, text, text, texts_itemsWithoutNull vs]
  | map _ => rfl

theorem texts_itemsWithoutNull : ∀ vs : List Value, texts (itemsWithoutNull vs) = texts vs
  | [] => rfl
  | v :: vs => by
    rw [itemsWithoutNull, texts, texts, text_withoutNull v, texts_itemsWithoutNull vs]

end

theorem isTruthy_withoutNull (v : Value) : v.withoutNull.isTruthy = v.isTruthy := by
  cases v <;> rfl

theorem items_withoutNull (v : Value) : v.withoutNull.items = v.items.map withoutNull := by
  cases v with
  | list vs => exact itemsWithoutNull_eq vs
  | map es => exact map_snd_entriesWithoutNull es
  | string s =>
    -- the items of a string are strings, none of them null
    rw [withoutNull, items, List.map_map]
    rfl
  | _ => rfl

theorem get?_withoutNull (v : Value) (key : String) :
    v.withoutNull.get? key = (v.get? key).map withoutNull := by
  cases v with
  | list vs =>
    rw [withoutNull, get?, get?, itemsWithoutNull_eq]
    cases listIndex? key with
    | none => rfl
    | some i => exact List.getElem?_map
  | map es => exact lookup_entriesWithoutNull es key
  | _ => rfl

theorem getPath?_withoutNull (v : Value) (keys : List String) :
    v.withoutNull.getPath? keys = (v.getPath? keys).map withoutNull := by
  induction keys generalizing v with
  | nil => rfl
  | cons key keys ih =>
    rw [getPath?, getPath?, get?_withoutNull]
    cases v.get? key with
    | none => rfl
    | some w => exact ih w

/-- Whether two values differ only in that one has null where the other has the empty string,
at whatever depth. -/
def Alike (v w : Value) : Prop := v.withoutNull = w.withoutNull

namespace Alike

variable {v w : Value}

theorem text_eq (h : v.Alike w) : v.text = w.text := by
  rw [← text_withoutNull v, h, text_withoutNull w]

theorem isTruthy_eq (h : v.Alike w) : v.isTruthy = w.isTruthy := by
  rw [← isTruthy_withoutNull v, h, isTruthy_withoutNull w]

theorem items (h : v.Alike w) : v.items.map withoutNull = w.items.map withoutNull := by
  rw [← items_withoutNull v, h, items_withoutNull w]

/-- Keys lead to alike values; what they lead to in neither is empty in both. -/
theorem getPath? (h : v.Alike w) (keys : List String) :
    ((v.getPath? keys).getD (.string "")).Alike ((w.getPath? keys).getD (.string "")) := by
  have hSame : (v.getPath? keys).map withoutNull = (w.getPath? keys).map withoutNull := by
    rw [← getPath?_withoutNull v, h, getPath?_withoutNull w]
  cases hv : v.getPath? keys with
  | none =>
    rw [hv, Option.map_none, eq_comm, Option.map_eq_none_iff] at hSame
    rw [hSame]
    rfl
  | some x =>
    rw [hv, Option.map_some, eq_comm, Option.map_eq_some_iff] at hSame
    obtain ⟨y, hw, hxy⟩ := hSame
    rw [hw]
    exact hxy.symm

end Alike

theorem IsVoid.alike {v : Value} (h : v.IsVoid) : v.Alike (string "") := by
  rcases h with rfl | rfl <;> rfl

end Value

/-! ## Alike scopes -/

namespace Scope

/-- The value of a variable, the empty string when there is none. -/
def valueOf (s : Scope) (name : String) : Value := (s.lookup name).getD (.string "")

def Alike (s s' : Scope) : Prop := ∀ name, (s.valueOf name).Alike (s'.valueOf name)

/-- The value of a path is found from the value of its name, also when there is none: nothing
is found in the empty string. -/
theorem resolve_of_segments {p : Path} {key : String} {keys : List String} (s : Scope)
    (h : p.segments = key :: keys) :
    s.resolve p = ((s.valueOf key).getPath? keys).getD (.string "") := by
  rw [resolve, h, valueOf]
  show ((s.lookup key).bind fun v => v.getPath? keys).getD (.string "") = _
  cases s.lookup key with
  | some v => rfl
  | none => cases keys <;> rfl

namespace Alike

variable {s s' : Scope}

theorem resolve (h : s.Alike s') (p : Path) : (s.resolve p).Alike (s'.resolve p) := by
  cases hSegments : p.segments with
  | nil =>
    rw [Scope.resolve, Scope.resolve, hSegments]
    rfl
  | cons key keys =>
    rw [resolve_of_segments s hSegments, resolve_of_segments s' hSegments]
    exact (h key).getPath? keys

theorem round {v w : Value} (h : s.Alike s') (hItem : v.Alike w) (itemName indexName : String)
    (index : Nat) :
    (s.round itemName v indexName index).Alike (s'.round itemName w indexName index) := by
  intro name
  rw [valueOf, valueOf, lookup, lookup]
  by_cases hName : name = itemName
  · rw [if_pos hName, if_pos hName]
    exact hItem
  · rw [if_neg hName, if_neg hName]
    by_cases hIndex : name = indexName
    · rw [if_pos hIndex, if_pos hIndex]
      rfl
    · rw [if_neg hIndex, if_neg hIndex]
      exact h name

end Alike

end Scope

/-! ## Outputs -/

theorem flatMap_zipIdx_eq_of_forall₂ {α β γ : Type} {R : α → β → Prop} {xs : List α} {ys : List β}
    {g : α × Nat → List γ} {g' : β × Nat → List γ} {n : Nat} (h : List.Forall₂ R xs ys)
    (hRound : ∀ x y i, (x, i) ∈ xs.zipIdx n → R x y → g (x, i) = g' (y, i)) :
    (xs.zipIdx n).flatMap g = (ys.zipIdx n).flatMap g' := by
  induction h generalizing n with
  | nil => rfl
  | @cons x y xs ys hHead _ ih =>
    rw [List.zipIdx_cons] at hRound
    have hTail : ∀ x y i, (x, i) ∈ xs.zipIdx (n + 1) → R x y → g (x, i) = g' (y, i) :=
      fun x y i hMem => hRound x y i (List.mem_cons_of_mem _ hMem)
    rw [List.zipIdx_cons, List.zipIdx_cons, List.flatMap_cons, List.flatMap_cons,
      hRound x y n List.mem_cons_self hHead, ih hTail]

/-- **Parts put out the same in alike scopes.** -/
theorem Part.piecesOf_eq_of_alike {s s' : Scope} (h : s.Alike s') (ps : List Part) :
    piecesOf ps s = piecesOf ps s' := by
  induction ps using Part.listInduction generalizing s s' with
  | nil => rfl
  | literal text ps ih => exact piecesOf_cons_eq rfl (ih h)
  | escape path ps ih =>
    refine piecesOf_cons_eq ?_ (ih h)
    rw [pieces, pieces, (h.resolve path).text_eq]
  | interpolate path ps ih =>
    refine piecesOf_cons_eq ?_ (ih h)
    rw [pieces, pieces, (h.resolve path).text_eq]
  | loop collection itemName indexName body ps ihBody ih =>
    refine piecesOf_cons_eq ?_ (ih h)
    -- as many rounds in both scopes, each with alike items
    have hItems : List.Forall₂ (fun v w => v.withoutNull = w.withoutNull)
        (s.resolve collection).items (s'.resolve collection).items :=
      List.forall₂_map_left_iff.mp (List.forall₂_map_right_iff.mp
        (List.forall₂_eq_eq_eq ▸ (h.resolve collection).items))
    refine flatMap_zipIdx_eq_of_forall₂ hItems ?_
    intro v w i _ hItem
    exact ihBody (h.round hItem itemName indexName i)
  | conditional condition body ps ihBody ih =>
    refine piecesOf_cons_eq ?_ (ih h)
    rw [pieces, pieces, (h.resolve condition).isTruthy_eq, ihBody h]
    rfl
  | branches condition first second ps ihFirst ihSecond ih =>
    refine piecesOf_cons_eq ?_ (ih h)
    have hSecond : piecesOfBranch (some second) s = piecesOfBranch (some second) s' := ihSecond h
    rw [pieces, pieces, (h.resolve condition).isTruthy_eq, ihFirst h, hSecond]

/-! ## Contexts -/

namespace Entries

/-- Whether entries differ from others only in that null and the empty string are exchanged,
at whatever depth, and in that void entries are added or removed. -/
inductive Varies : Entries Value → Entries Value → Prop
  | nil : Varies [] []
  | exchanged {es fs : Entries Value} {v w : Value} (k : String) :
    v.Alike w → Varies es fs → Varies ((k, v) :: es) ((k, w) :: fs)
  | added {es fs : Entries Value} {v : Value} (k : String) :
    v.IsVoid → fs.lookup k = none → Varies es fs → Varies es ((k, v) :: fs)
  | removed {es fs : Entries Value} {v : Value} (k : String) :
    v.IsVoid → es.lookup k = none → Varies es fs → Varies ((k, v) :: es) fs

theorem Varies.alike {es fs : Entries Value} (h : Varies es fs) (name : String) :
    ((es.lookup name).getD (.string "")).Alike ((fs.lookup name).getD (.string "")) := by
  induction h with
  | nil => rfl
  | exchanged k hAlike _ ih =>
    rw [List.lookup_cons, List.lookup_cons]
    cases name == k with
    | true => exact hAlike
    | false => exact ih
  | added k hVoid hNew _ ih =>
    rw [List.lookup_cons]
    cases hName : name == k with
    | true =>
      -- nothing was found under the name of the added entry
      rw [eq_of_beq hName, hNew] at ih
      rw [eq_of_beq hName]
      exact ih.trans hVoid.alike.symm
    | false => exact ih
  | removed k hVoid hNew _ ih =>
    rw [List.lookup_cons]
    cases hName : name == k with
    | true =>
      rw [eq_of_beq hName, hNew] at ih
      rw [eq_of_beq hName]
      exact hVoid.alike.trans ih
    | false => exact ih

end Entries

namespace Template

/-- **What is absent, null or the empty string puts out the same**: the output of a template is
the same for two contexts that vary in void values only, and for any two whose variables have
alike values, those that are missing being empty. -/
theorem render_eq_of_varies (t : Template) (c d : Context) :
    (Entries.Varies c.entries d.entries → t.render c = t.render d) ∧
      ((∀ name, ((c.get? name).getD (.string "")).Alike ((d.get? name).getD (.string ""))) →
        t.render c = t.render d) := by
  have hAlike (h : (Scope.root c).Alike (.root d)) : t.render c = t.render d :=
    congrArg String.join (Part.piecesOf_eq_of_alike h t.parts)
  exact ⟨fun h => hAlike h.alike, hAlike⟩

/-- Void values as an item, in an item and as variables, of which some are missing. -/
theorem render_eq_of_varies_nested :
    let t : Template := ⟨[.loopOver (.parse "xs") "x"
        [.interpolate (.parse "x"), .conditional (.parse "x.a") [.literal "!"] none],
      .escape (.parse "y.z"), .interpolate (.parse "xs"), .loopOver (.parse "z") "x" []]⟩
    let c : Context := ⟨[("y", .null), ("xs", .list [.null, .map [("a", .string "")]])]⟩
    let d : Context := ⟨[("xs", .list [.string "", .map [("a", .null)]]), ("z", .string "")]⟩
    (Entries.Varies c.entries d.entries ∧ t.render c = t.render d) ∧
      (∀ name, ((c.get? name).getD (.string "")).Alike ((d.get? name).getD (.string ""))) ∧
      t.render c = t.render d := by
  intro t c d
  have hVaries : Entries.Varies c.entries d.entries :=
    .removed "y" (.inl rfl) rfl (.exchanged "xs" rfl (.added "z" (.inr rfl) rfl .nil))
  have hAlike : ∀ name, ((c.get? name).getD (.string "")).Alike ((d.get? name).getD (.string "")) :=
    hVaries.alike
  obtain ⟨hOfVaries, hOfAlike⟩ := render_eq_of_varies t c d
  exact ⟨⟨hVaries, hOfVaries hVaries⟩, hAlike, hOfAlike hAlike⟩

end Template

end Stencil
