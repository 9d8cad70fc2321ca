import Stencil.Pattern.Surveyed

/-!
# A survey, node by node

A survey goes through a text from its end to its start with the whole pattern at once.
What it knows of a part of the pattern at a place depends on that part and on what follows
it alone, so it can be told for each kind of node from its parts.

* `Sequel`: what follows a node, at every place of a text.
* `Node.known`: what a survey knows of a node when it comes to a place;
  `Node.passing` is the way through the node and on.
* `Node.known_seq`, …, `Node.known_many`: the same from the parts of a node.
* `Pattern.at?_search`: the match at a place is the way through the pattern.
-/

namespace Stencil

open Text

def Place.between (before after : List Char) : Place :=
  ⟨byteLength before, before.getLast?, after.head?⟩

/-- What follows a node, at every place of a text: the ways on when so much of the text is
before and so much after. -/
abbrev Sequel := (before after : List Char) → Onward

namespace Node

/-- What a survey knows of a node when it comes to a place: after each set of the node, how
to go on one place later. -/
def known (x : Node Unit) (k : Sequel) : List Char → List Char → Node (Option Finish)
  | _, [] => x.fill none
  | before, c :: after =>
    (x.known k (before ++ [c]) after).charge (.between (before ++ [c]) after)
      (k (before ++ [c]) after)

def passing (x : Node Unit) (k : Sequel) : Sequel := fun before after =>
  (x.known k before after).enter (.between before after) (k before after)

/-- What a survey knows of the body of a repetition; after it there is another round, or the
sequel. -/
def knownBody (greedy : Bool) (body : Node Unit) (k : Sequel) :
    List Char → List Char → Node (Option Finish)
  | _, [] => body.fill none
  | before, c :: after =>
    let later := knownBody greedy body k (before ++ [c]) after
    later.charge (.between (before ++ [c]) after)
      ((k (before ++ [c]) after).orAgain greedy
        (later.enter (.between (before ++ [c]) after) .stuck))

def rounds (greedy : Bool) (body : Node Unit) (k : Sequel) : Sequel := fun before after =>
  (k before after).orAgain greedy
    ((knownBody greedy body k before after).enter (.between before after) .stuck)

/-! ## From the parts -/

section

variable (k : Sequel) (before after : List Char)

theorem known_empty : empty.known k before after = .empty := by
  induction after generalizing before with
  | nil => rfl
  | cons c after ih => rw [known, ih, charge]

theorem known_anchor (a : Anchor) : (anchor a).known k before after = .anchor a := by
  induction after generalizing before with
  | nil => rfl
  | cons c after ih => rw [known, ih, charge]

theorem known_chars (set : CharSet) :
    (chars set ()).known k before after = .chars set
      (match after with
      | [] => none
      | c :: after => (k (before ++ [c]) after).best) := by
  induction after generalizing before with
  | nil => rfl
  | cons c after ih => rw [known, ih, charge]

theorem known_seq (a b : Node Unit) :
    (seq a b).known k before after = .seq (a.known (b.passing k) before after)
      (b.known k before after) := by
  induction after generalizing before with
  | nil => rfl
  | cons c after ih =>
    rw [known, ih]
    rfl

theorem known_alt (a b : Node Unit) :
    (alt a b).known k before after = .alt (a.known k before after) (b.known k before after) := by
  induction after generalizing before with
  | nil => rfl
  | cons c after ih =>
    rw [known, ih]
    rfl

theorem known_rounds (greedy : Bool) (body : Node Unit) :
    body.known (rounds greedy body k) before after = knownBody greedy body k before after := by
  induction after generalizing before with
  | nil => rfl
  | cons c after ih =>
    rw [known, ih]
    rfl

theorem known_many (greedy : Bool) (body : Node Unit) :
    (many greedy body).known k before after =
      .many greedy (body.known (rounds greedy body k) before after) := by
  rw [known_rounds]
  induction after generalizing before with
  | nil => rfl
  | cons c after ih =>
    rw [known, ih]
    rfl

theorem known_group (i : Nat) (body : Node Unit) :
    (group i body).known k before after =
      .group i (body.known (fun b a => (k b a).mark i true (byteLength b)) before after) := by
  induction after generalizing before with
  | nil => rfl
  | cons c after ih =>
    rw [known, ih]
    rfl

theorem known_gate (id : Nat) (body : Node Unit) :
    (gate id body).known k before after = .gate id (body.known k before after) := by
  induction after generalizing before with
  | nil => rfl
  | cons c after ih =>
    rw [known, ih]
    rfl

theorem rounds_eq (greedy : Bool) (body : Node Unit) :
    rounds greedy body k before after = (k before after).orAgain greedy
      ((body.known (rounds greedy body k) before after).enter (.between before after) .stuck) := by
  rw [known_rounds]
  rfl

theorem passing_empty : empty.passing k before after = k before after := by
  rw [passing, known_empty]
  rfl

theorem passing_seq (a b : Node Unit) :
    (seq a b).passing k before after = a.passing (b.passing k) before after := by
  rw [passing, known_seq]
  rfl

theorem passing_group (i : Nat) (body : Node Unit) :
    (group i body).passing k before after =
      (body.passing (fun b a => (k b a).mark i true (byteLength b)) before after).mark i false
        (byteLength before) := by
  rw [passing, known_group]
  rfl

theorem passing_seqs_cons (x : Node Unit) (xs : List (Node Unit)) :
    (seqs (x :: xs)).passing k before after = x.passing ((seqs xs).passing k) before after := by
  cases xs with
  | nil =>
    have hEmpty : (seqs []).passing k = k := by
      funext b a
      exact passing_empty k b a
    rw [hEmpty]
    rfl
  | cons y ys => exact passing_seq k before after x (seqs (y :: ys))

theorem nullable_charge (here : Place) (x : Node (Option Finish)) (onward : Onward) :
    (x.charge here onward).nullable = x.nullable := by
  induction x generalizing onward with
  | empty => rfl
  | chars => rfl
  | anchor => rfl
  | seq a b iha ihb => rw [charge, nullable, iha, ihb, nullable]
  | alt a b iha ihb => rw [charge, nullable, iha, ihb, nullable]
  | many greedy body ih => rw [charge, nullable, ih, nullable]
  | group i body ih => rw [charge, nullable, ih, nullable]
  | gate id body ih => rw [charge, nullable, ih, nullable]

theorem nullable_fill {β : Type} (x : Node Unit) (b : β) : (x.fill b).nullable = x.nullable := by
  induction x with
  | empty => rfl
  | chars => rfl
  | anchor => rfl
  | seq a b iha ihb => rw [fill, nullable, iha, ihb, nullable]
  | alt a b iha ihb => rw [fill, nullable, iha, ihb, nullable]
  | many greedy body ih => rw [fill, nullable, ih, nullable]
  | group i body ih => rw [fill, nullable, ih, nullable]
  | gate id body ih => rw [fill, nullable, ih, nullable]

theorem nullable_known (x : Node Unit) : (x.known k before after).nullable = x.nullable := by
  induction after generalizing before with
  | nil => exact x.nullable_fill none
  | cons c after ih => rw [known, nullable_charge, ih]

end

/-- A set is passed by a character of it, and the way goes on one place later. -/
theorem enter_chars_cons (set : CharSet) (next : Option Finish) (before : List Char) (c : Char)
    (after : List Char) (onward : Onward) (seen : List Nat) :
    ((chars set next).enter (.between before (c :: after)) onward seen).1 =
      if set.contains c then next else none := by
  cases next with
  | none => exact (ite_self none).symm
  | some f =>
    show (if set.contains c then some f else none) = _
    rfl

theorem enter_chars_nil (set : CharSet) (next : Option Finish) (before : List Char)
    (onward : Onward) (seen : List Nat) :
    ((chars set next).enter (.between before []) onward seen).1 = none := by
  cases next <;> rfl

/-- What takes a character goes on one place later, whatever follows at this one. -/
theorem enter_of_not_nullable (here : Place) (x : Node (Option Finish)) (h : x.nullable = false)
    (onward other : Onward) : x.enter here onward = x.enter here other := by
  induction x generalizing onward other with
  | empty => cases h
  | chars => rfl
  | anchor => cases h
  | seq a b iha ihb =>
    rw [nullable, Bool.and_eq_false_iff] at h
    rcases h with h | h
    · exact iha h _ _
    · rw [enter, enter, ihb h onward other]
  | alt a b iha ihb =>
    rw [nullable, Bool.or_eq_false_iff] at h
    rw [enter, enter, iha h.1 onward other, ihb h.2 onward other]
  | many greedy body ih => exact ih h _ _
  | group i body ih => rw [enter, enter, ih h (onward.mark i true here.offset)]
  | gate id body ih => rw [enter, enter, ih h onward other]

end Node

/-! ## The whole pattern -/

namespace Pattern

def finish : Sequel := fun before after => finishAt (.between before after)

def surveyFrom (p : Pattern) (before after : List Char) : Node (Option Finish) × List Spot :=
  (placesFrom (byteLength before) before.getLast? after).foldr surveyStep (p.root.fill none, [])

def matchAt (p : Pattern) (before after : List Char) : Option Match :=
  (p.root.passing finish before after).best.map fun f => ⟨byteLength before, f.stop, f.marks⟩

theorem placesFrom_cons (before : List Char) (c : Char) (after : List Char) :
    placesFrom (byteLength before) before.getLast? (c :: after) =
      .between before (c :: after) ::
        placesFrom (byteLength (before ++ [c])) (before ++ [c]).getLast? after := by
  rw [placesFrom, List.getLast?_concat, byteLength_append]
  rfl

theorem surveyFrom_cons (p : Pattern) (before : List Char) (c : Char) (after : List Char) :
    p.surveyFrom before (c :: after) =
      surveyStep (.between before (c :: after)) (p.surveyFrom (before ++ [c]) after) := by
  rw [surveyFrom, placesFrom_cons]
  rfl

theorem surveyFrom_fst (p : Pattern) (before after : List Char) :
    (p.surveyFrom before after).1 =
      (p.root.known finish before after).charge (.between before after) (finish before after) := by
  induction after generalizing before with
  | nil => rfl
  | cons c after ih =>
    rw [surveyFrom_cons, surveyStep, ih]
    rfl

theorem surveyFrom_nil_snd (p : Pattern) (before : List Char) :
    (p.surveyFrom before []).2 = [⟨byteLength before, p.matchAt before []⟩] := rfl

theorem surveyFrom_cons_snd (p : Pattern) (before : List Char) (c : Char) (after : List Char) :
    (p.surveyFrom before (c :: after)).2 =
      ⟨byteLength before, p.matchAt before (c :: after)⟩ ::
        (p.surveyFrom (before ++ [c]) after).2 := by
  rw [surveyFrom_cons, surveyStep, surveyFrom_fst]
  rfl

theorem matchAt_start {p : Pattern} {before after : List Char} {m : Match}
    (h : p.matchAt before after = some m) : m.start = byteLength before := by
  obtain ⟨f, -, rfl⟩ := Option.map_eq_some_iff.mp h
  rfl

theorem filter_matchAt (p : Pattern) (before after : List Char) (offset : Nat) :
    (p.matchAt before after).filter (fun m => m.start == offset) =
      if byteLength before = offset then p.matchAt before after else none := by
  cases h : p.matchAt before after with
  | none => simp only [Option.filter_none, ite_self]
  | some m => simp only [Option.filter_some, matchAt_start h, beq_iff_eq]

theorem find?_filterMap_cons (spot : Spot) (spots : List Spot) (wanted : Match → Bool) :
    ((spot :: spots).filterMap (·.found)).find? wanted =
      (spot.found.filter wanted).or ((spots.filterMap (·.found)).find? wanted) := by
  rw [List.filterMap_cons]
  cases spot.found with
  | none => rfl
  | some m =>
    simp only [List.find?_cons, Option.filter_some]
    cases wanted m with
    | true => rfl
    | false => rfl

theorem find?_surveyFrom_of_lt (p : Pattern) (before after : List Char) {offset : Nat}
    (hlt : offset < byteLength before) :
    ((p.surveyFrom before after).2.filterMap (·.found)).find? (fun m => m.start == offset) =
      none := by
  refine List.find?_eq_none.mpr fun m hm => ?_
  have hle := ((p.surveyed after (byteLength before) before.getLast?).lies m hm).1.1
  simp only [beq_iff_eq]
  omega

/-- Of the matches from a place on, the one that starts at a place is the one that was found
there. -/
theorem find?_surveyFrom (p : Pattern) (before between after : List Char) :
    ((p.surveyFrom before (between ++ after)).2.filterMap (·.found)).find?
        (fun m => m.start == byteLength (before ++ between)) =
      p.matchAt (before ++ between) after := by
  induction between generalizing before with
  | nil =>
    rw [List.nil_append, List.append_nil]
    cases after with
    | nil =>
      rw [surveyFrom_nil_snd, find?_filterMap_cons, filter_matchAt, if_pos rfl]
      exact Option.or_none
    | cons c after =>
      have hlt : byteLength before < byteLength (before ++ [c]) := by
        have := c.utf8Size_pos
        simp only [byteLength_append, byteLength]
        omega
      rw [surveyFrom_cons_snd, find?_filterMap_cons, filter_matchAt, if_pos rfl,
        find?_surveyFrom_of_lt p _ after hlt, Option.or_none]
  | cons c between ih =>
    have hne : byteLength before ≠ byteLength (before ++ c :: between) := by
      have := c.utf8Size_pos
      simp only [byteLength_append, byteLength]
      omega
    rw [List.cons_append, surveyFrom_cons_snd, find?_filterMap_cons, filter_matchAt, if_neg hne,
      Option.none_or, List.append_cons]
    exact ih (before ++ [c])

/-- **The match at a place is the way through the pattern.** -/
theorem at?_search (p : Pattern) (before after : List Char) :
    (p.search (before ++ after)).at? (byteLength before) = p.matchAt before after :=
  p.find?_surveyFrom [] before after

end Pattern

end Stencil
