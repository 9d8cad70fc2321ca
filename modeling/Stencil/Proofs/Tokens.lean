import Mathlib.Data.List.Chain
import Stencil.Proofs.Scan

/-!
# The tokens tile the text

The rules alone say how a text divides into tokens: where a directive starts it is the next
token, else the text up to the first one is a literal.  A scan returns just these tokens,
and they cover the text from end to end.

* `RuleSet.Divides`: the tokens of a text from a place on.
* `Scanner.Sound`: what a scan has noted is true; `Scanner.front` is where its next token
  starts.
* `Scanner.Sound.next`: what a step returns (`Scanner.Advances`).
* `Scanner.Sound.run`: what a run returns.
* `RuleSet.Divides.liesIn`, `RuleSet.Divides.starts`, `RuleSet.Divides.join`: tokens lie
  where they say, without gaps, and are the text together.
* `RuleSet.tokens_tile_text`: the tiling, with the offset that is shown after each token.
-/

namespace Stencil

open Text

variable {text : List Char} {rules : RuleSet}

/-- The tokens of a text from a place on, as the rules alone tell them. -/
inductive RuleSet.Divides (rules : RuleSet) (text : List Char) : Nat → List Token → Prop
  /-- At the end there is nothing. -/
  | stop : Divides rules text (byteLength text) []
  /-- No directive is ahead. -/
  | rest {i : Nat} : i < byteLength text →
      FirstFrom (rules.directiveAt? text) i none →
      Divides rules text i [.literal (String.ofList (dropBytes i text)) i]
  | directive {i : Nat} {d : Directive} {ts : List Token} :
      rules.directiveAt? text i = some d → Divides rules text d.stop ts →
      Divides rules text i (.directive d :: ts)
  /-- The first directive ahead starts later. -/
  | literal {i : Nat} {d : Directive} {ts : List Token} : i < d.start →
      FirstFrom (rules.directiveAt? text) i (some d) →
      Divides rules text d.start (.directive d :: ts) →
      Divides rules text i
        (.literal (String.ofList (slice i d.start text)) i :: .directive d :: ts)

/-- The offsets that are shown after tokens: the end of each, but at a literal already that
of the directive after it. -/
def Token.offsetsAfter : List Token → List Nat
  | [] => []
  | .literal _ _ :: .directive d :: ts => d.stop :: offsetsAfter (.directive d :: ts)
  | t :: ts => t.stop :: offsetsAfter ts

/-! ## Directives of a text -/

/-- The part of a text that a group matched last, if it took part in the match. -/
def Match.textOf? (m : Match) (text : List Char) (i : Nat) : Option String :=
  (m.group? i).map fun (start, stop) => String.ofList (slice start stop text)

theorem Finder.path_directive (f : Finder text) (m : Match) :
    (f.directive m).path = f.slots.path.bind (m.textOf? text) :=
  Option.map_bind ..

theorem Finder.itemName_directive (f : Finder text) (m : Match) :
    (f.directive m).itemName = f.slots.itemName.bind (m.textOf? text) :=
  Option.map_bind ..

theorem Finder.directiveAt?_raw {f : Finder text} {offset : Nat} {d : Directive}
    (h : f.directiveAt? offset = some d) :
    IsBoundary text d.start ∧ d.raw = String.ofList (slice d.start d.stop text) := by
  obtain ⟨m, hm, rfl⟩ := Option.map_eq_some_iff.mp h
  exact ⟨(f.search.at?_liesIn (Search.nonempty?_eq_some.mp hm).1).1, rfl⟩

theorem RuleSet.directiveAt?_eq_some {offset : Nat} {d : Directive}
    (h : rules.directiveAt? text offset = some d) :
    d.start = offset ∧ d.start < d.stop ∧ IsBoundary text d.start ∧ IsBoundary text d.stop ∧
      d.raw = String.ofList (slice d.start d.stop text) := by
  obtain ⟨f, -, hf⟩ := List.exists_of_findSome?_eq_some h
  obtain ⟨hStart, hlt, hStop⟩ := Finder.directiveAt?_eq_some hf
  obtain ⟨hBoundary, hRaw⟩ := Finder.directiveAt?_raw hf
  exact ⟨hStart, hlt, hBoundary, hStop, hRaw⟩

/-- The directives among the tokens are those that start at their places. -/
theorem RuleSet.Divides.directiveAt?_of_mem {i : Nat} {ts : List Token}
    (h : rules.Divides text i ts) {d : Directive} (hMem : .directive d ∈ ts) :
    rules.directiveAt? text d.start = some d := by
  induction h with
  | stop => cases hMem
  | rest => cases List.mem_singleton.mp hMem
  | @directive i e ts hAt _ ih =>
    rcases List.mem_cons.mp hMem with hHead | hTail
    · cases hHead
      rw [(RuleSet.directiveAt?_eq_some hAt).1]
      exact hAt
    · exact ih hTail
  | literal _ _ _ ih =>
    rcases List.mem_cons.mp hMem with hHead | hTail
    · cases hHead
    · exact ih hTail

theorem RuleSet.directiveAt?_of_first {offset : Nat} {d : Directive}
    (h : FirstFrom (rules.directiveAt? text) offset (some d)) :
    offset ≤ d.start ∧ rules.directiveAt? text d.start = some d := by
  have hStart {i : Nat} {e : Directive} (he : rules.directiveAt? text i = some e) :
      e.start = i := (directiveAt?_eq_some he).1
  obtain ⟨hle, hAt, -⟩ := (FirstFrom.some_iff hStart).mp h
  exact ⟨hle, hAt⟩

theorem RuleSet.isBoundary_of_first {offset : Nat} {d : Directive}
    (h : FirstFrom (rules.directiveAt? text) offset (some d)) : IsBoundary text d.start :=
  (directiveAt?_eq_some (directiveAt?_of_first h).2).2.2.1

/-! ## A step of a scan -/

namespace Scanner

variable {s : Scanner text}

def front (s : Scanner text) : Nat :=
  match s.pending with
  | some d => d.start
  | none => s.cursor

/-- What a scan has noted is true: a directive that is pending ends at the cursor, and the
cursor of a finished scan is at the end. -/
structure Sound (rules : RuleSet) (s : Scanner text) : Prop where
  valid : s.Valid rules
  pending : ∀ d, s.pending = some d →
    rules.directiveAt? text d.start = some d ∧ s.cursor = d.stop ∧ s.finished = false
  finished : s.finished = true → s.cursor = byteLength text

inductive Advances (rules : RuleSet) (s : Scanner text) : Option Token × Scanner text → Prop
  | stop {after : Scanner text} : s.front = byteLength text → after.pending = none →
      after.finished = true → after.cursor = byteLength text → Advances rules s (none, after)
  | rest {after : Scanner text} : s.front < byteLength text →
      FirstFrom (rules.directiveAt? text) s.front none →
      after.front = byteLength text → after.pending = none → after.finished = true →
      after.cursor = byteLength text →
      Advances rules s (some (.literal (String.ofList (dropBytes s.front text)) s.front), after)
  | directive {d : Directive} {after : Scanner text} :
      rules.directiveAt? text s.front = some d → after.front = d.stop →
      after.cursor = d.stop → Advances rules s (some (.directive d), after)
  | literal {d : Directive} {after : Scanner text} : s.front < d.start →
      FirstFrom (rules.directiveAt? text) s.front (some d) → after.pending = some d →
      after.cursor = d.stop →
      Advances rules s (some (.literal (String.ofList (slice s.front d.start text)) s.front), after)

theorem front_of_pending {d : Directive} (h : s.pending = some d) : s.front = d.start := by
  rw [front, h]

theorem front_of_not_pending (h : s.pending = none) : s.front = s.cursor := by
  rw [front, h]

/-- What a step returns does not hang on what the lanes remember. -/
theorem Advances.of_lanes {lanes : List (Lane text)} {r : Option Token × Scanner text}
    (h : Advances rules { s with lanes } r) : Advances rules s r := by
  cases h with
  | stop hFront hPending hFinished hCursor => exact .stop hFront hPending hFinished hCursor
  | rest hlt hFirst hFront hPending hFinished hCursor =>
    exact .rest hlt hFirst hFront hPending hFinished hCursor
  | directive hAt hFront hCursor => exact .directive hAt hFront hCursor
  | literal hlt hFirst hPending hCursor => exact .literal hlt hFirst hPending hCursor

theorem Sound.of_start (rules : RuleSet) (text : List Char) :
    (start (rules.finders text)).Sound rules where
  valid := valid_start rules text
  pending _ hd := nomatch hd
  finished h := nomatch h

theorem Sound.reach (h : s.Sound rules) (hPending : s.pending = none)
    (hFinished : s.finished = false) {d : Directive}
    (hFirst : FirstFrom (rules.directiveAt? text) s.cursor (some d)) :
    Advances rules s (s.reach d) ∧ (s.reach d).2.Sound rules := by
  obtain ⟨hle, hAt⟩ := RuleSet.directiveAt?_of_first hFirst
  obtain ⟨-, hlt, -, hStop, -⟩ := RuleSet.directiveAt?_eq_some hAt
  have hMove := h.valid.move (Nat.le_trans hle (Nat.le_of_lt hlt)) hStop
  have hFront := front_of_not_pending hPending
  rw [Scanner.reach]
  by_cases hStart : d.start = s.cursor
  · rw [if_pos hStart]
    constructor
    · rw [hStart, ← hFront] at hAt
      exact .directive hAt (front_of_not_pending hPending) rfl
    · refine ⟨hMove s.pending s.finished, fun e he => ?_, fun hEnd => ?_⟩
      · exact absurd (he.symm.trans hPending) (Option.some_ne_none e)
      · exact absurd (hFinished.symm.trans hEnd) Bool.false_ne_true
  · rw [if_neg hStart]
    constructor
    · have hBefore : s.front < d.start := by omega
      rw [← hFront] at hFirst
      rw [← hFront]
      exact .literal hBefore hFirst rfl rfl
    · refine ⟨hMove (some d) s.finished, fun e he => ?_, fun hEnd => ?_⟩
      · obtain rfl := Option.some.inj he
        exact ⟨hAt, rfl, hFinished⟩
      · exact absurd (hFinished.symm.trans hEnd) Bool.false_ne_true

theorem Sound.finish (h : s.Sound rules) (hPending : s.pending = none)
    (hFirst : FirstFrom (rules.directiveAt? text) s.cursor none) :
    Advances rules s s.finish ∧ s.finish.2.Sound rules := by
  have hFront := front_of_not_pending hPending
  have hCursor := h.valid.cursor
  have hLength := hCursor.add_byteLength_dropBytes
  rw [Scanner.finish]
  constructor
  · split
    · rename_i hEmpty
      have hEnd := hCursor.eq_byteLength (List.isEmpty_iff.mp hEmpty)
      exact .stop (hFront.trans hEnd) hPending rfl rfl
    · rename_i hSome
      have hlt : s.front < byteLength text := by
        have := byteLength_pos fun hNil => hSome (List.isEmpty_iff.mpr hNil)
        omega
      have hAfter : front { s with cursor := byteLength text, finished := true } =
          byteLength text := front_of_not_pending hPending
      rw [← hFront] at hFirst ⊢
      exact .rest hlt hFirst hAfter hPending rfl rfl
  · refine ⟨h.valid.move hCursor.le (isBoundary_byteLength text) s.pending true,
      fun d hd => ?_, fun _ => rfl⟩
    exact absurd (hd.symm.trans hPending) (Option.some_ne_none d)

/-- **What a step of a scan does.** -/
theorem Sound.next (h : s.Sound rules) :
    Advances rules s s.next ∧ s.next.2.Sound rules := by
  rw [Scanner.next]
  cases hPending : s.pending with
  | some d =>
    obtain ⟨hAt, hCursor, hFinished⟩ := h.pending d hPending
    constructor
    · exact .directive (front_of_pending hPending ▸ hAt) hCursor hCursor
    · exact ⟨h.valid.move (Nat.le_refl _) h.valid.cursor none s.finished,
        fun e he => absurd he.symm (Option.some_ne_none e), h.finished⟩
  | none =>
    cases hFinished : s.finished with
    | true =>
      have hCursor := h.finished hFinished
      exact ⟨.stop ((front_of_not_pending hPending).trans hCursor) hPending hFinished hCursor, h⟩
    | false =>
      obtain ⟨hFirst, lanes, hAfter, hValid⟩ := h.valid.nextDirective
      simp only [Bool.false_eq_true, if_false]
      cases hNext : s.nextDirective with
      | mk found after =>
        rw [hNext] at hFirst hAfter
        obtain rfl := hAfter
        have hSound : Sound rules { s with lanes } := ⟨hValid, h.pending, h.finished⟩
        cases found with
        | some d =>
          obtain ⟨hAdvances, hNextSound⟩ := hSound.reach hPending hFinished hFirst
          exact ⟨hAdvances.of_lanes, hNextSound⟩
        | none =>
          obtain ⟨hAdvances, hNextSound⟩ := hSound.finish hPending hFirst
          exact ⟨hAdvances.of_lanes, hNextSound⟩

/-! ## A run of a scan -/

theorem next_of_finished (hPending : s.pending = none) (hFinished : s.finished = true) :
    s.next = (none, s) := by
  rw [Scanner.next, hPending, hFinished]
  rfl

theorem run_of_finished (hPending : s.pending = none) (hFinished : s.finished = true)
    (fuel : Nat) : s.run fuel = ([], s) := by
  cases fuel with
  | zero => rfl
  | succ fuel => rw [Scanner.run, next_of_finished hPending hFinished]

theorem run_succ_of_next {t : Token} {after : Scanner text} (h : s.next = (some t, after))
    (fuel : Nat) :
    s.run (fuel + 1) = ((t, after.cursor) :: (after.run fuel).1, (after.run fuel).2) := by
  rw [Scanner.run, h]

theorem run_succ_of_pending {d : Directive} (h : s.pending = some d) (fuel : Nat) :
    ∃ r, (s.run (fuel + 1)).1 = (.directive d, s.cursor) :: r := by
  have hNext : s.next = (some (.directive d), { s with pending := none }) := by
    rw [Scanner.next, h]
  exact ⟨_, congrArg Prod.fst (run_succ_of_next hNext fuel)⟩

theorem Sound.isBoundary_front (h : s.Sound rules) : IsBoundary text s.front := by
  cases hPending : s.pending with
  | some d =>
    rw [front_of_pending hPending]
    exact (RuleSet.directiveAt?_eq_some (h.pending d hPending).1).2.2.1
  | none =>
    rw [front_of_not_pending hPending]
    exact h.valid.cursor

/-- What a run returns: the tokens from a place on, the offsets that are shown after them,
and a scan that has come to the end and stays there. -/
structure Returns (rules : RuleSet) (front : Nat) (r : List (Token × Nat) × Scanner text) :
    Prop where
  divides : rules.Divides text front (r.1.map (·.1))
  shown : r.1.map (·.2) = Token.offsetsAfter (r.1.map (·.1))
  ends : r.2.next = (none, r.2)
  cursor : r.2.cursor = byteLength text

theorem Returns.of_finished (hPending : s.pending = none) (hFinished : s.finished = true)
    (hCursor : s.cursor = byteLength text) :
    Returns rules (byteLength text) ([], s) where
  divides := .stop
  shown := rfl
  ends := next_of_finished hPending hFinished
  cursor := hCursor

/-- **A run returns the tokens ahead**, when its fuel exceeds their number. -/
theorem Sound.run (fuel : Nat) (h : s.Sound rules) (hFuel : s.ahead < fuel) :
    Returns rules s.front (s.run fuel) := by
  induction fuel generalizing s with
  | zero => exact absurd hFuel (Nat.not_lt_zero _)
  | succ fuel ih =>
    have hSteps := h.valid.next
    obtain ⟨hAdvances, hSound⟩ := h.next
    cases hNext : s.next with
    | mk t after =>
      rw [hNext] at hAdvances hSound hSteps
      have hRun : after.ahead < s.ahead → Returns rules after.front (after.run fuel) :=
        fun hLess => ih hSound (Nat.lt_of_lt_of_le hLess (Nat.le_of_lt_succ hFuel))
      cases hAdvances with
      | stop hFront hPending hFinished hCursor =>
        rw [Scanner.run, hNext, hFront]
        exact .of_finished hPending hFinished hCursor
      | rest hlt hFirst hFront hPending hFinished hCursor =>
        have hLength := h.isBoundary_front.add_byteLength_dropBytes
        rw [run_succ_of_next hNext, run_of_finished hPending hFinished]
        refine ⟨.rest hlt hFirst, ?_, next_of_finished hPending hFinished, hCursor⟩
        simp only [List.map_cons, List.map_nil, Token.offsetsAfter, Token.stop,
          String.toList_ofList, hCursor, hLength]
      | @directive d _ hAt hFront hCursor =>
        have hRest := hRun hSteps.ahead
        rw [hFront] at hRest
        rw [run_succ_of_next hNext]
        refine ⟨.directive hAt hRest.divides, ?_, hRest.ends, hRest.cursor⟩
        simp only [List.map_cons, hRest.shown, hCursor]
        rfl
      | @literal d _ hlt hFirst hPending hCursor =>
        have hLess : after.ahead < s.ahead := hSteps.ahead
        have hRest := hRun hLess
        rw [front_of_pending hPending] at hRest
        rw [run_succ_of_next hNext]
        -- the step after the literal returns the directive that is pending
        have hFuel' : fuel = fuel - 1 + 1 := by omega
        obtain ⟨r, hr⟩ := run_succ_of_pending hPending (fuel - 1)
        rw [← hFuel'] at hr
        have hDivides := hRest.divides
        have hShown := hRest.shown
        rw [hr] at hDivides hShown
        refine ⟨?_, ?_, hRest.ends, hRest.cursor⟩
        · simp only [List.map_cons, hr]
          exact .literal hlt hFirst hDivides
        · simp only [List.map_cons, hr, Token.offsetsAfter] at hShown ⊢
          rw [hShown, hCursor]

end Scanner

/-! ## What the tokens of a text cover -/

/-- Whether a token lies in a text where it says, and takes some of it. -/
structure Token.LiesIn (text : List Char) (t : Token) : Prop where
  start : IsBoundary text t.start
  stop : IsBoundary text t.stop
  lt : t.start < t.stop
  text : t.text = String.ofList (slice t.start t.stop text)

theorem Token.LiesIn.text_ne_empty {t : Token} (h : t.LiesIn text) : t.text ≠ "" := by
  intro hEmpty
  have hLength := h.start.byteLength_slice h.stop (Nat.le_of_lt h.lt)
  have hNil : slice t.start t.stop text = [] := by
    have hText := congrArg String.toList (h.text.symm.trans hEmpty)
    rwa [String.toList_ofList] at hText
  have := h.lt
  rw [hNil] at hLength
  simp only [byteLength] at hLength
  omega

theorem Token.stop_literal {i j : Nat} (hi : IsBoundary text i) (hj : IsBoundary text j)
    (hle : i ≤ j) : (literal (String.ofList (slice i j text)) i).stop = j := by
  have hLength := hi.byteLength_slice hj hle
  rw [stop, String.toList_ofList, hLength]
  omega

theorem Token.liesIn_literal {i j : Nat} (hi : IsBoundary text i) (hj : IsBoundary text j)
    (hlt : i < j) : (literal (String.ofList (slice i j text)) i).LiesIn text := by
  have hStop := stop_literal hi hj (Nat.le_of_lt hlt)
  constructor
  · exact hi
  · rw [hStop]
    exact hj
  · rw [hStop]
    exact hlt
  · rw [hStop]
    rfl

theorem Token.liesIn_directive {i : Nat} {d : Directive}
    (h : rules.directiveAt? text i = some d) : (directive d).LiesIn text := by
  obtain ⟨-, hlt, hStart, hStop, hRaw⟩ := RuleSet.directiveAt?_eq_some h
  exact ⟨hStart, hStop, hlt, hRaw⟩

namespace RuleSet.Divides

variable {i : Nat} {ts : List Token}

theorem liesIn (h : rules.Divides text i ts) (hi : IsBoundary text i) :
    ∀ t ∈ ts, t.LiesIn text := by
  induction h with
  | stop => exact nofun
  | rest hlt _ =>
    intro t ht
    obtain rfl := List.mem_singleton.mp ht
    rw [← hi.slice_byteLength]
    exact Token.liesIn_literal hi (isBoundary_byteLength text) hlt
  | directive hAt _ ih =>
    have hLies := Token.liesIn_directive hAt
    exact List.forall_mem_cons.mpr ⟨hLies, ih hLies.stop⟩
  | literal hlt hFirst _ ih =>
    have hStart := RuleSet.isBoundary_of_first hFirst
    exact List.forall_mem_cons.mpr ⟨Token.liesIn_literal hi hStart hlt, ih hStart⟩

/-- **There are no gaps**: the tokens start at the place where they begin to be told and
where the token before ends, and the last one ends with the text. -/
theorem starts (h : rules.Divides text i ts) (hi : IsBoundary text i) :
    ts.map Token.start ++ [byteLength text] = i :: ts.map Token.stop := by
  induction h with
  | stop => rfl
  | rest hlt _ =>
    rw [← hi.slice_byteLength, List.map_singleton, List.map_singleton,
      Token.stop_literal hi (isBoundary_byteLength text) (Nat.le_of_lt hlt)]
    rfl
  | directive hAt _ ih =>
    have hLies := Token.liesIn_directive hAt
    have hStart := (RuleSet.directiveAt?_eq_some hAt).1
    rw [List.map_cons, List.map_cons, List.cons_append, ih hLies.stop]
    exact congrArg (· :: _) hStart
  | literal hlt hFirst _ ih =>
    have hStart := RuleSet.isBoundary_of_first hFirst
    have hStop := Token.stop_literal hi hStart (Nat.le_of_lt hlt)
    rw [List.map_cons, List.cons_append, ih hStart, List.map_cons]
    rw [List.map_cons (a := Token.literal _ _), hStop]
    rfl

theorem join_map_text_cons {t : Token} (ht : t.LiesIn text)
    (hRest : String.join (ts.map Token.text) = String.ofList (dropBytes t.stop text)) :
    String.join ((t :: ts).map Token.text) = String.ofList (dropBytes t.start text) := by
  rw [List.map_cons, String.join_cons, hRest, ht.text, ← String.ofList_append,
    ht.start.slice_append_dropBytes (Nat.le_of_lt ht.lt)]

/-- **Nothing is lost**: the tokens are the text together. -/
theorem join (h : rules.Divides text i ts) (hi : IsBoundary text i) :
    String.join (ts.map Token.text) = String.ofList (dropBytes i text) := by
  induction h with
  | stop =>
    rw [dropBytes_byteLength]
    rfl
  | rest =>
    rw [List.map_singleton, String.join_cons, String.join_nil, String.append_empty]
    rfl
  | directive hAt _ ih =>
    have hLies := Token.liesIn_directive hAt
    rw [join_map_text_cons hLies (ih hLies.stop), ← (RuleSet.directiveAt?_eq_some hAt).1]
    rfl
  | literal hlt hFirst _ ih =>
    have hStart := RuleSet.isBoundary_of_first hFirst
    have hRest := ih hStart
    rw [← Token.stop_literal hi hStart (Nat.le_of_lt hlt)] at hRest
    exact join_map_text_cons (Token.liesIn_literal hi hStart hlt) hRest

theorem isChain (h : rules.Divides text i ts) :
    ts.IsChain fun t u => t.directive?.isSome ∨ u.directive?.isSome := by
  induction h with
  | stop => exact .nil
  | rest => exact .singleton _
  | directive _ _ ih => exact ih.cons fun u _ => .inl rfl
  | literal _ _ _ ih => exact .cons_cons (.inr rfl) ih

end RuleSet.Divides

/-! ## All tokens of a text -/

theorem RuleSet.scan_returns (rules : RuleSet) (text : String) :
    Scanner.Returns rules 0 (rules.scan text) := by
  have hAhead : (Scanner.start (rules.finders text.toList)).ahead <
      2 * byteLength text.toList + 2 := by
    simp only [Scanner.ahead, Scanner.start, Option.isSome_none, Bool.not_false,
      Bool.toNat_false, Bool.toNat_true]
    omega
  exact (Scanner.Sound.of_start rules text.toList).run _ hAhead

theorem RuleSet.divides_tokens (rules : RuleSet) (text : String) :
    rules.Divides text.toList 0 (rules.tokens text) :=
  (rules.scan_returns text).divides

/-- **The tokens tile the text**: together they are the text; they begin at its start, each
where the one before ends, and end with it; they cut no character, none is empty and no two
literals meet.  After each its end is shown, but at a literal that a directive follows already
that of the directive.  In the end the scan is at the end of the text and returns no more. -/
theorem RuleSet.tokens_tile_text (rules : RuleSet) (text : String) :
    let tokens := rules.tokens text
    let shown := (rules.scan text).1.map (·.2)
    let last := (rules.scan text).2
    String.join (tokens.map Token.text) = text ∧
      tokens.map Token.start ++ [byteLength text.toList] = 0 :: tokens.map Token.stop ∧
      (∀ t ∈ tokens, IsBoundary text.toList t.start ∧ IsBoundary text.toList t.stop ∧
        t.text = String.ofList (slice t.start t.stop text.toList) ∧ t.text ≠ "") ∧
      tokens.IsChain (fun t u => t.directive?.isSome ∨ u.directive?.isSome) ∧
      shown = Token.offsetsAfter tokens ∧
      last.next = (none, last) ∧ last.cursor = byteLength text.toList := by
  intro tokens shown last
  have hReturns := rules.scan_returns text
  have hDivides := rules.divides_tokens text
  have hZero := isBoundary_zero text.toList
  refine ⟨?_, hDivides.starts hZero, fun t ht => ?_, hDivides.isChain, hReturns.shown,
    hReturns.ends, hReturns.cursor⟩
  · rw [hDivides.join hZero, dropBytes_zero, String.ofList_toList]
  · have hLies := hDivides.liesIn hZero t ht
    exact ⟨hLies.start, hLies.stop, hLies.text, hLies.text_ne_empty⟩

end Stencil
