import Stencil.Proofs.Pattern.Sequel

/-!
# What patterns match

A pattern takes stretches of a text.  A search finds a match at a place only where its
pattern takes a stretch, and where it takes one a search finds a match, as long as no gate
stands in the way.

* `Node.Takes`: the stretches that a node takes, with the groups on the way; nodes one after
  another take stretches one after another (`Node.takes_seqs_cons`).
* `Node.Passes`: a way through a node and on; every way that a survey finds is one
  (`Node.passes_of_enter`).
* `Onward.Succeeds`: there is a way on, whatever gates have been passed.
* `Node.IsPlain`: nodes without gates whose repetitions take some text each time; where one
  takes a stretch and there is a way on, a survey finds a way (`Node.Takes.succeeds`).
* `Node.exists_shortest_of_lazy`: a lazy repetition takes no more than it has to.
* `Pattern.takes_of_matchAt`, `Pattern.exists_matchAt`: the same for whole patterns.
-/

namespace Stencil

open Text

def Finish.after (ms : List Mark) (f : Finish) : Finish := ⟨f.stop, ms ++ f.marks⟩

theorem Finish.after_after (ms ns : List Mark) (f : Finish) :
    (f.after ns).after ms = f.after (ms ++ ns) := by
  simp only [Finish.after, List.append_assoc]

theorem Finish.mark_after_mark (i start stop : Nat) (ms : List Mark) (f : Finish) :
    ((f.mark i true stop).after ms).mark i false start =
      f.after (⟨i, false, start⟩ :: (ms ++ [⟨i, true, stop⟩])) := by
  simp only [Finish.after, Finish.mark, List.cons_append, List.append_assoc, List.nil_append]

def groupMarks (i : Nat) (before g : List Char) : List Mark :=
  [⟨i, false, byteLength before⟩, ⟨i, true, byteLength (before ++ g)⟩]

namespace Node

/-- Whether a node takes a stretch of a text between what is before it and what is after it,
and the groups that open and close on the way. -/
inductive Takes : Node Unit → (before taken after : List Char) → List Mark → Prop
  | empty {before after : List Char} : Takes empty before [] after []
  | chars {set : CharSet} {c : Char} {before after : List Char} : set.contains c = true →
      Takes (chars set ()) before [c] after []
  | anchor {a : Anchor} {before after : List Char} :
      a.holds before.getLast? after.head? = true → Takes (anchor a) before [] after []
  | seq {a b : Node Unit} {before s t after : List Char} {ms ns : List Mark} :
      Takes a before s (t ++ after) ms → Takes b (before ++ s) t after ns →
      Takes (seq a b) before (s ++ t) after (ms ++ ns)
  | first {a b : Node Unit} {before s after : List Char} {ms : List Mark} :
      Takes a before s after ms → Takes (alt a b) before s after ms
  | second {a b : Node Unit} {before s after : List Char} {ms : List Mark} :
      Takes b before s after ms → Takes (alt a b) before s after ms
  | once {greedy : Bool} {body : Node Unit} {before s after : List Char} {ms : List Mark} :
      Takes body before s after ms → Takes (many greedy body) before s after ms
  | again {greedy : Bool} {body : Node Unit} {before s t after : List Char}
      {ms ns : List Mark} :
      Takes body before s (t ++ after) ms → Takes (many greedy body) (before ++ s) t after ns →
      Takes (many greedy body) before (s ++ t) after (ms ++ ns)
  | group {i : Nat} {body : Node Unit} {before s after : List Char} {ms : List Mark} :
      Takes body before s after ms →
      Takes (group i body) before s after
        (⟨i, false, byteLength before⟩ :: (ms ++ [⟨i, true, byteLength (before ++ s)⟩]))
  | gate {id : Nat} {body : Node Unit} {before s after : List Char} {ms : List Mark} :
      Takes body before s after ms → Takes (gate id body) before s after ms

/-! ## What kinds of nodes take -/

section

variable {before s after : List Char} {ms : List Mark} {xs : List (Node Unit)}

theorem takes_seqs_nil : (seqs []).Takes before s after ms ↔ s = [] ∧ ms = [] := by
  constructor
  · intro h
    cases h
    exact ⟨rfl, rfl⟩
  · rintro ⟨rfl, rfl⟩
    exact .empty

theorem takes_seqs_cons {x : Node Unit} :
    (seqs (x :: xs)).Takes before s after ms ↔
      ∃ t u ns os, s = t ++ u ∧ ms = ns ++ os ∧ x.Takes before t (u ++ after) ns ∧
        (seqs xs).Takes (before ++ t) u after os := by
  cases xs with
  | nil =>
    constructor
    · intro h
      exact ⟨s, [], ms, [], (List.append_nil s).symm, (List.append_nil ms).symm, h, .empty⟩
    · rintro ⟨t, u, ns, os, rfl, rfl, hx, hNil⟩
      obtain ⟨rfl, rfl⟩ := takes_seqs_nil.mp hNil
      rw [List.append_nil, List.append_nil]
      exact hx
  | cons y ys =>
    constructor
    · intro h
      cases h with
      | seq hx hMore => exact ⟨_, _, _, _, rfl, rfl, hx, hMore⟩
    · rintro ⟨t, u, ns, os, rfl, rfl, hx, hMore⟩
      exact .seq hx hMore

theorem takes_chars {set : CharSet} :
    (chars set ()).Takes before s after ms ↔ ∃ c, s = [c] ∧ ms = [] ∧ set.contains c = true := by
  constructor
  · intro h
    cases h with
    | chars hc => exact ⟨_, rfl, rfl, hc⟩
  · rintro ⟨c, rfl, rfl, hc⟩
    exact .chars hc

theorem takes_many_chars {greedy : Bool} {set : CharSet} :
    (many greedy (chars set ())).Takes before s after ms ↔
      s ≠ [] ∧ ms = [] ∧ ∀ c ∈ s, set.contains c = true := by
  constructor
  · intro h
    generalize hx : many greedy (chars set ()) = x at h
    induction h with
    | once h =>
      cases hx
      obtain ⟨c, rfl, rfl, hc⟩ := takes_chars.mp h
      exact ⟨List.cons_ne_nil c [], rfl, fun d hd => List.mem_singleton.mp hd ▸ hc⟩
    | again h _ _ ih =>
      cases hx
      obtain ⟨c, rfl, rfl, hc⟩ := takes_chars.mp h
      obtain ⟨-, rfl, hAll⟩ := ih rfl
      exact ⟨List.cons_ne_nil c _, rfl, List.forall_mem_cons.mpr ⟨hc, hAll⟩⟩
    | _ => cases hx
  · rintro ⟨hs, rfl, hAll⟩
    induction s generalizing before with
    | nil => exact absurd rfl hs
    | cons c s ih =>
      obtain ⟨hc, hAll⟩ := List.forall_mem_cons.mp hAll
      cases s with
      | nil => exact .once (.chars hc)
      | cons d s => exact .again (.chars hc) (ih (List.cons_ne_nil d s) hAll)

theorem takes_group {i : Nat} {x : Node Unit} :
    (group i x).Takes before s after ms ↔ ∃ ns, x.Takes before s after ns ∧
      ms = ⟨i, false, byteLength before⟩ :: (ns ++ [⟨i, true, byteLength (before ++ s)⟩]) := by
  constructor
  · intro h
    cases h with
    | group hx => exact ⟨_, hx, rfl⟩
  · rintro ⟨ns, hx, rfl⟩
    exact .group hx

theorem takes_seqs_append {ys : List (Node Unit)} :
    (seqs (ys ++ xs)).Takes before s after ms ↔
      ∃ t u ns os, s = t ++ u ∧ ms = ns ++ os ∧ (seqs ys).Takes before t (u ++ after) ns ∧
        (seqs xs).Takes (before ++ t) u after os := by
  induction ys generalizing before s ms with
  | nil =>
    constructor
    · intro h
      exact ⟨[], s, [], ms, rfl, rfl, .empty, by rwa [List.append_nil]⟩
    · rintro ⟨t, u, ns, os, rfl, rfl, hNil, hMore⟩
      obtain ⟨rfl, rfl⟩ := takes_seqs_nil.mp hNil
      rwa [List.append_nil] at hMore
  | cons y ys ih =>
    constructor
    · intro h
      obtain ⟨t, _, ns, _, rfl, rfl, hy, hRest⟩ := takes_seqs_cons.mp h
      obtain ⟨t', u, ns', os, rfl, rfl, hys, hMore⟩ := ih.mp hRest
      refine ⟨t ++ t', u, ns ++ ns', os, (List.append_assoc ..).symm,
        (List.append_assoc ..).symm, takes_seqs_cons.mpr ⟨t, t', ns, ns', rfl, rfl, ?_, hys⟩, ?_⟩
      · rwa [← List.append_assoc]
      · rwa [← List.append_assoc]
    · rintro ⟨_, u, _, os, rfl, rfl, hAll, hMore⟩
      obtain ⟨t, t', ns, ns', rfl, rfl, hy, hys⟩ := takes_seqs_cons.mp hAll
      refine takes_seqs_cons.mpr ⟨t, t' ++ u, ns, ns' ++ os, List.append_assoc ..,
        List.append_assoc .., ?_, ih.mpr ⟨t', u, ns', os, rfl, rfl, hys, ?_⟩⟩
      · rwa [List.append_assoc]
      · rwa [List.append_assoc]

end

/-! ## Every way is one through the node -/

/-- Whether a finish is reached through a node: it takes nothing, and the way goes on at the
same place, or it takes a stretch, and the way goes on after it. -/
inductive Passes (x : Node Unit) (k : Sequel) (onward : Onward) (before after : List Char) :
    Finish → Prop
  | here {ms : List Mark} {seen : List Nat} {f : Finish} : x.Takes before [] after ms →
      (onward seen).1 = some f → Passes x k onward before after (f.after ms)
  | later {s rest : List Char} {ms : List Mark} {seen : List Nat} {f : Finish} : s ≠ [] →
      after = s ++ rest → x.Takes before s rest ms → (k (before ++ s) rest seen).1 = some f →
      Passes x k onward before after (f.after ms)

namespace Passes

variable {x y : Node Unit} {k : Sequel} {onward : Onward} {before after : List Char} {f : Finish}

theorem imp (h : x.Passes k onward before after f)
    (hTakes : ∀ {s rest ms}, x.Takes before s rest ms → y.Takes before s rest ms) :
    y.Passes k onward before after f := by
  cases h with
  | here h hf => exact .here (hTakes h) hf
  | later hs hAfter h hf => exact .later hs hAfter (hTakes h) hf

theorem seq_here {ms : List Mark} (hx : x.Takes before [] after ms)
    (h : y.Passes k onward before after f) :
    (seq x y).Passes k onward before after (f.after ms) := by
  have hSeq {s rest : List Char} {ns : List Mark} (hAfter : after = s ++ rest)
      (hy : y.Takes before s rest ns) : (seq x y).Takes before s rest (ms ++ ns) := by
    rw [hAfter] at hx
    exact .seq (s := []) hx (by rwa [List.append_nil])
  cases h with
  | here hy hf =>
    rw [Finish.after_after]
    exact .here (hSeq rfl hy) hf
  | later hs hAfter hy hf =>
    rw [Finish.after_after]
    exact .later hs hAfter (hSeq hAfter hy) hf

theorem seq_later {s rest : List Char} {ms : List Mark} (hs : s ≠ [])
    (hx : x.Takes before s rest ms)
    (h : y.Passes k (k (before ++ s) rest) (before ++ s) rest f) :
    (seq x y).Passes k onward before (s ++ rest) (f.after ms) := by
  cases h with
  | here hy hf =>
    rw [Finish.after_after]
    have hSeq := Takes.seq (t := []) hx hy
    rw [List.append_nil] at hSeq
    exact .later hs rfl hSeq hf
  | @later t rest ns _ _ ht hAfter hy hf =>
    subst hAfter
    rw [Finish.after_after]
    rw [List.append_assoc] at hf
    exact .later (List.append_ne_nil_of_left_ne_nil hs t) (List.append_assoc s t rest).symm
      (.seq hx hy) hf

theorem again_here {greedy : Bool} {ms : List Mark} (hx : x.Takes before [] after ms)
    (h : (many greedy x).Passes k .stuck before after f) :
    (many greedy x).Passes k onward before after (f.after ms) := by
  cases h with
  | here _ hf => cases hf
  | later hs hAfter hMany hf =>
    rw [hAfter] at hx
    rw [Finish.after_after]
    exact .later hs hAfter (.again (s := []) hx (by rwa [List.append_nil])) hf

end Passes

end Node

theorem Onward.exists_of_orElse {first second : Onward} {seen : List Nat} {f : Finish}
    (h : (first.orElse second seen).1 = some f) :
    (first seen).1 = some f ∨ ∃ seen', (second seen').1 = some f := by
  rw [Onward.orElse] at h
  split at h
  · rename_i g seen' hFirst
    rw [hFirst]
    exact .inl h
  · exact .inr ⟨_, h⟩

theorem Onward.exists_of_orAgain {onward again : Onward} {greedy : Bool} {seen : List Nat}
    {f : Finish} (h : (onward.orAgain greedy again seen).1 = some f) :
    (∃ seen', (onward seen').1 = some f) ∨ ∃ seen', (again seen').1 = some f := by
  rw [Onward.orAgain] at h
  split at h
  · exact (exists_of_orElse h).symm.imp_right fun h => ⟨seen, h⟩
  · exact (exists_of_orElse h).imp_left fun h => ⟨seen, h⟩

namespace Node

/-- Whether every way that a survey finds through a node is one. -/
def Sound (x : Node Unit) : Prop :=
  ∀ {k : Sequel} {onward : Onward} {before after : List Char} {seen : List Nat} {f : Finish},
    ((x.known k before after).enter (.between before after) onward seen).1 = some f →
      x.Passes k onward before after f

section

variable {greedy : Bool} {body : Node Unit} {k : Sequel} {before after : List Char}
  {f : Finish}

/-- **After a round there are more rounds, or none.** -/
theorem Sound.of_rounds (hBody : body.Sound) {seen : List Nat}
    (h : (rounds greedy body k before after seen).1 = some f) :
    (∃ seen', (k before after seen').1 = some f) ∨
      ∃ s rest ms seen' g, s ≠ [] ∧ after = s ++ rest ∧
        (many greedy body).Takes before s rest ms ∧ (k (before ++ s) rest seen').1 = some g ∧
        f = g.after ms := by
  -- each further round begins after some text, so there is less text after it
  induction hLength : after.length using Nat.strongRecOn generalizing before after seen f with
  | ind n ih =>
    subst hLength
    rw [rounds_eq] at h
    rcases Onward.exists_of_orAgain h with hk | ⟨seen', hAgain⟩
    · exact .inl hk
    · cases hBody hAgain with
      | here _ hf => cases hf
      | @later s rest ms _ g hs hAfter hTakes hg =>
        subst hAfter
        have hLess : rest.length < (s ++ rest).length := by
          have := List.length_pos_iff.mpr hs
          rw [List.length_append]
          omega
        refine .inr ?_
        rcases ih _ hLess hg rfl with
          ⟨seen'', hk⟩ | ⟨t, rest, ns, seen'', g, _, rfl, hMore, hk, rfl⟩
        · exact ⟨s, rest, ms, seen'', g, hs, rfl, .once hTakes, hk, rfl⟩
        · rw [List.append_assoc] at hk
          exact ⟨s ++ t, rest, ms ++ ns, seen'', g, List.append_ne_nil_of_left_ne_nil hs t,
            (List.append_assoc s t rest).symm, .again hTakes hMore, hk,
            Finish.after_after ms ns g⟩

theorem Sound.many_later (hBody : body.Sound) {onward : Onward} {s rest : List Char}
    {ms : List Mark} {seen : List Nat} (hs : s ≠ []) (hTakes : body.Takes before s rest ms)
    (h : (rounds greedy body k (before ++ s) rest seen).1 = some f) :
    (many greedy body).Passes k onward before (s ++ rest) (f.after ms) := by
  rcases hBody.of_rounds h with ⟨seen', hk⟩ | ⟨t, rest, ns, seen', g, _, rfl, hMore, hk, rfl⟩
  · exact .later hs rfl (.once hTakes) hk
  · rw [Finish.after_after]
    rw [List.append_assoc] at hk
    exact .later (List.append_ne_nil_of_left_ne_nil hs t) (List.append_assoc s t rest).symm
      (.again hTakes hMore) hk

theorem Sound.many (hBody : body.Sound) : (many greedy body).Sound := by
  intro k onward before after seen f h
  rw [known_many] at h
  cases hBody h with
  | later hs hAfter hTakes hf =>
    subst hAfter
    exact hBody.many_later hs hTakes hf
  | @here ms _ g hTakes hRound =>
    rcases Onward.exists_of_orAgain hRound with ⟨seen', hOn⟩ | ⟨seen', hAgain⟩
    · exact .here (.once hTakes) hOn
    · -- a second round at the same place takes a stretch
      cases hBody hAgain with
      | here _ hf => cases hf
      | @later s rest ns _ g hs hAfter hMore hf =>
        subst hAfter
        exact .again_here hTakes (hBody.many_later hs hMore hf)

end

/-- **Every way that a survey finds through a node is one.** -/
theorem passes_of_enter (x : Node Unit) : x.Sound := by
  induction x with
  | empty =>
    intro k onward before after seen f h
    rw [known_empty] at h
    exact .here .empty h
  | chars set next =>
    intro k onward before after seen f h
    rw [known_chars] at h
    cases after with
    | nil =>
      rw [enter_chars_nil] at h
      cases h
    | cons c after =>
      rw [enter_chars_cons] at h
      split at h
      · rename_i hc
        exact .later (List.cons_ne_nil c []) rfl (.chars hc) h
      · cases h
  | anchor a =>
    intro k onward before after seen f h
    rw [known_anchor, enter] at h
    split at h
    · rename_i hHolds
      exact .here (.anchor hHolds) h
    · cases h
  | seq a b iha ihb =>
    intro k onward before after seen f h
    rw [known_seq] at h
    cases iha h with
    | here ha hf => exact .seq_here ha (ihb hf)
    | later hs hAfter ha hf =>
      subst hAfter
      exact .seq_later hs ha (ihb hf)
  | alt a b iha ihb =>
    intro k onward before after seen f h
    rw [known_alt] at h
    rcases Onward.exists_of_orElse h with hFirst | ⟨seen', hSecond⟩
    · exact (iha hFirst).imp .first
    · exact (ihb hSecond).imp .second
  | many greedy body ih => exact ih.many
  | group i body ih =>
    intro k onward before after seen f h
    rw [known_group, enter] at h
    obtain ⟨g, hg, rfl⟩ := Option.map_eq_some_iff.mp h
    cases ih hg with
    | here hBody hMark =>
      obtain ⟨f, hf, rfl⟩ := Option.map_eq_some_iff.mp hMark
      have hGroup := Takes.group (i := i) hBody
      rw [List.append_nil] at hGroup
      rw [Finish.mark_after_mark]
      exact .here hGroup hf
    | later hs hAfter hBody hMark =>
      obtain ⟨f, hf, rfl⟩ := Option.map_eq_some_iff.mp hMark
      rw [Finish.mark_after_mark]
      exact .later hs hAfter (.group hBody) hf
  | gate id body ih =>
    intro k onward before after seen f h
    -- a gate only takes ways away, so what is found through it is a way of the body
    rw [known_gate, enter, Onward.through] at h
    split at h
    · cases h
    · exact (ih h).imp .gate

/-! ## Where a node takes a stretch there is a way -/

end Node

def Onward.Succeeds (onward : Onward) : Prop := ∀ seen, (onward seen).1.isSome = true

namespace Onward.Succeeds

variable {first second onward again : Onward}

theorem orElse_left (h : first.Succeeds) : (first.orElse second).Succeeds := by
  intro seen
  obtain ⟨f, hf⟩ := Option.isSome_iff_exists.mp (h seen)
  rw [Onward.orElse]
  split
  · rfl
  · rename_i hNone
    rw [hNone] at hf
    cases hf

theorem orElse_right (h : second.Succeeds) : (first.orElse second).Succeeds := by
  intro seen
  rw [Onward.orElse]
  split
  · rfl
  · exact h _

theorem orAgain_left (h : onward.Succeeds) (greedy : Bool) :
    (onward.orAgain greedy again).Succeeds := by
  rw [Onward.orAgain]
  split
  · exact h.orElse_right
  · exact h.orElse_left

theorem orAgain_right (h : again.Succeeds) (greedy : Bool) :
    (onward.orAgain greedy again).Succeeds := by
  rw [Onward.orAgain]
  split
  · exact h.orElse_left
  · exact h.orElse_right

theorem mark (h : onward.Succeeds) (i : Nat) (closes : Bool) (offset : Nat) :
    (onward.mark i closes offset).Succeeds := by
  intro seen
  have hSome := h seen
  rw [← Option.isSome_map (f := Finish.mark i closes offset)] at hSome
  exact hSome

end Onward.Succeeds

namespace Node

/-- Whether a node has no gates and its repetitions take some text each time. -/
def IsPlain : Node Unit → Prop
  | empty => True
  | chars _ _ => True
  | anchor _ => True
  | seq a b => a.IsPlain ∧ b.IsPlain
  | alt a b => a.IsPlain ∧ b.IsPlain
  | many _ body => body.nullable = false ∧ body.IsPlain
  | group _ body => body.IsPlain
  | gate _ _ => False

instance decidableIsPlain : (x : Node Unit) → Decidable x.IsPlain
  | empty => inferInstanceAs (Decidable True)
  | chars _ _ => inferInstanceAs (Decidable True)
  | anchor _ => inferInstanceAs (Decidable True)
  | seq a b => @instDecidableAnd _ _ (decidableIsPlain a) (decidableIsPlain b)
  | alt a b => @instDecidableAnd _ _ (decidableIsPlain a) (decidableIsPlain b)
  | many _ body => @instDecidableAnd _ _ _ (decidableIsPlain body)
  | group _ body => decidableIsPlain body
  | gate _ _ => inferInstanceAs (Decidable False)

theorem Takes.nullable {x : Node Unit} {before s after : List Char} {ms : List Mark}
    (h : x.Takes before s after ms) (hs : s = []) : x.nullable = true := by
  induction h with
  | empty => rfl
  | chars => cases hs
  | anchor => rfl
  | seq _ _ iha ihb =>
    obtain ⟨hs, ht⟩ := List.append_eq_nil_iff.mp hs
    rw [Node.nullable, iha hs, ihb ht]
    rfl
  | first _ ih => rw [Node.nullable, ih hs, Bool.true_or]
  | second _ ih => rw [Node.nullable, ih hs, Bool.or_true]
  | once _ ih => exact ih hs
  | again _ _ ih _ => exact ih (List.append_eq_nil_iff.mp hs).1
  | group _ ih => exact ih hs
  | gate _ ih => exact ih hs

/-- **Where a plain node takes a stretch, and there is a way on after it, there is a way
through the node.** -/
theorem Takes.succeeds {x : Node Unit} {before s after : List Char} {ms : List Mark}
    (h : x.Takes before s after ms) (hPlain : x.IsPlain) {k : Sequel} {onward : Onward}
    (hHere : s = [] → onward.Succeeds) (hLater : s ≠ [] → (k (before ++ s) after).Succeeds) :
    ((x.known k before (s ++ after)).enter (.between before (s ++ after)) onward).Succeeds := by
  induction h generalizing k onward with
  | empty =>
    rw [known_empty]
    exact hHere rfl
  | @chars set c before after hc =>
    intro seen
    rw [known_chars, List.singleton_append, enter_chars_cons, if_pos hc]
    exact hLater (List.cons_ne_nil c []) []
  | @anchor a before after hHolds =>
    have hHolds : a.holds (Place.between before after).before (Place.between before after).after =
      true := hHolds
    rw [known_anchor, List.nil_append, enter, if_pos hHolds]
    exact hHere rfl
  | @seq a b before s t after ms ns _ hb iha ihb =>
    rw [known_seq, List.append_assoc]
    refine iha hPlain.1 (fun hs => ?_) fun hs => ?_
    · subst hs
      rw [List.append_nil] at ihb
      exact ihb hPlain.2 hHere hLater
    · refine ihb hPlain.2 (fun ht => ?_) fun ht => ?_
      · subst ht
        rw [List.append_nil] at hLater
        exact hLater hs
      · rw [List.append_assoc]
        exact hLater (List.append_ne_nil_of_right_ne_nil s ht)
  | first _ ih =>
    rw [known_alt]
    exact (ih hPlain.1 hHere hLater).orElse_left
  | second _ ih =>
    rw [known_alt]
    exact (ih hPlain.2 hHere hLater).orElse_right
  | once _ ih =>
    rw [known_many]
    refine ih hPlain.2 (fun hs => (hHere hs).orAgain_left _) fun hs => ?_
    rw [rounds_eq]
    exact (hLater hs).orAgain_left _
  | @again greedy body before s t after ms ns hBody _ ih ihMore =>
    rw [known_many, List.append_assoc]
    have hs : s ≠ [] := fun hs => by
      have hNullable := hBody.nullable hs
      rw [hPlain.1] at hNullable
      cases hNullable
    refine ih hPlain.2 (fun hNil => absurd hNil hs) fun _ => ?_
    have hMore := @ihMore hPlain k (k (before ++ s) (t ++ after)) (fun ht => ?_) fun ht => ?_
    · -- the body goes on one place later, so it does not matter what follows it here
      rw [known_many, enter,
        enter_of_not_nullable _ _ ((nullable_known ..).trans hPlain.1) _ .stuck] at hMore
      rw [rounds_eq]
      exact hMore.orAgain_right greedy
    · subst ht
      rw [List.append_nil] at hLater
      exact hLater hs
    · rw [List.append_assoc]
      exact hLater (List.append_ne_nil_of_left_ne_nil hs t)
  | group _ ih =>
    rw [known_group]
    refine Onward.Succeeds.mark (ih hPlain (fun hs => (hHere hs).mark _ _ _) fun hs => ?_) _ _ _
    exact (hLater hs).mark _ _ _
  -- behind a gate a way could have been lost to an earlier one
  | gate => cases hPlain

/-! ## Lazy repetitions -/

section

variable {set : CharSet} {k : Sequel} {before after : List Char} {f : Finish}

theorem passing_many_chars_cons (greedy : Bool) (c : Char) (seen : List Nat) :
    ((many greedy (chars set ())).passing k before (c :: after) seen).1 =
      if set.contains c then (rounds greedy (chars set ()) k (before ++ [c]) after).best
      else none := by
  rw [passing, known_many, known_chars, enter, enter_chars_cons]

theorem passing_many_chars_nil (greedy : Bool) (seen : List Nat) :
    ((many greedy (chars set ())).passing k before [] seen).1 = none := by
  rw [passing, known_many, known_chars, enter, enter_chars_nil]

/-- A lazy repetition goes on only where the sequel fails. -/
theorem best_rounds_lazy (h : (rounds false (chars set ()) k before after).best = some f) :
    (k before after).best = some f ∨ (k before after).best = none ∧
      ∃ seen, ((many false (chars set ())).passing k before after seen).1 = some f := by
  rw [rounds_eq, Onward.orAgain, Onward.best, if_neg Bool.false_ne_true, Onward.orElse] at h
  rw [Onward.best]
  cases hk : k before after [] with
  | mk found seen =>
    rw [hk] at h
    cases found with
    | some g => exact .inl h
    | none =>
      refine .inr ⟨rfl, seen, ?_⟩
      rw [known_chars] at h
      rw [passing, known_many, known_chars]
      exact h

/-- **A lazy repetition takes no more than it has to**: after less the sequel fails. -/
theorem exists_shortest_of_lazy {seen : List Nat}
    (h : ((many false (chars set ())).passing k before after seen).1 = some f) :
    ∃ s rest, s ≠ [] ∧ after = s ++ rest ∧ (∀ c ∈ s, set.contains c = true) ∧
      (k (before ++ s) rest).best = some f ∧
      ∀ t more, t ≠ [] → after = t ++ more → t.length < s.length →
        (k (before ++ t) more).best = none := by
  induction after generalizing before seen with
  | nil =>
    rw [passing_many_chars_nil] at h
    cases h
  | cons c after ih =>
    rw [passing_many_chars_cons] at h
    split at h
    · rename_i hc
      rcases best_rounds_lazy h with hNow | ⟨hNone, seen', hMore⟩
      · refine ⟨[c], after, List.cons_ne_nil c [], rfl, ?_, hNow, ?_⟩
        · intro d hd
          rw [List.mem_singleton.mp hd]
          exact hc
        · intro t more ht _ hlt
          have := List.length_pos_iff.mpr ht
          simp only [List.length_singleton] at hlt
          omega
      · obtain ⟨s, rest, hs, rfl, hAll, hk, hFails⟩ := ih hMore
        refine ⟨c :: s, rest, List.cons_ne_nil c s, rfl,
          List.forall_mem_cons.mpr ⟨hc, hAll⟩, ?_, ?_⟩
        · rw [List.append_cons]
          exact hk
        · intro t more ht hAfter hlt
          cases t with
          | nil => exact absurd rfl ht
          | cons d t =>
            obtain ⟨rfl, hRest⟩ := List.cons.inj hAfter
            -- less is the first character alone, or it and less of what was taken after it
            by_cases hNil : t = []
            · subst hNil
              have hRest : s ++ rest = more := hRest
              rw [← hRest]
              exact hNone
            · rw [List.append_cons]
              exact hFails t more hNil hRest (Nat.lt_of_succ_lt_succ hlt)
    · cases h

end

end Node

/-! ## Whole patterns -/

namespace Pattern

variable {p : Pattern} {before after : List Char}

/-- **A match is a stretch that the pattern takes.** -/
theorem takes_of_matchAt {m : Match} (h : p.matchAt before after = some m) :
    ∃ s rest, after = s ++ rest ∧ p.root.Takes before s rest m.marks ∧
      m.start = byteLength before ∧ m.stop = byteLength (before ++ s) := by
  obtain ⟨f, hf, rfl⟩ := Option.map_eq_some_iff.mp h
  cases p.root.passes_of_enter hf with
  | @here ms _ f hTakes hEnd =>
    obtain rfl := Option.some.inj hEnd
    refine ⟨[], after, rfl, ?_, rfl, ?_⟩
    · simpa [Finish.after] using hTakes
    · simp [Finish.after, Place.between]
  | @later s rest ms _ f _ hAfter hTakes hEnd =>
    obtain rfl := Option.some.inj hEnd
    refine ⟨s, rest, hAfter, ?_, rfl, ?_⟩
    · simpa [Finish.after] using hTakes
    · simp [Finish.after, Place.between]

/-- **Where a plain pattern takes a stretch there is a match.** -/
theorem exists_matchAt {s rest : List Char} {ms : List Mark} (hPlain : p.root.IsPlain)
    (h : p.root.Takes before s rest ms) : ∃ m, p.matchAt before (s ++ rest) = some m := by
  have hFinish (before after : List Char) : (finish before after).Succeeds := fun _ => rfl
  have hSome := h.succeeds hPlain (fun _ => hFinish before (s ++ rest)) (fun _ => hFinish _ _) []
  obtain ⟨f, hf⟩ := Option.isSome_iff_exists.mp hSome
  exact ⟨_, congrArg (Option.map _) hf⟩

end Pattern

end Stencil
