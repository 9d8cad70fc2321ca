import Stencil.Token

/-!
# Scanning with and without memory

A scan keeps the next match of every rule and searches again only when the cursor has
passed it.  The directives it finds are those of a scan that remembers nothing.

* `RuleSet.directiveAt?`: the directive that starts at a place.
* `RuleSet.Scans`: the directives of a text from a place on, each the first that starts
  after the one before.
* `Lane.Faithful`: what a lane remembers is still true at a later place
  (`Lane.Faithful.mono`).
* `Lane.choose_first`: the lanes together know the first directive.
* `Scanner.Valid.next`, `Scanner.Valid.run`: a step and a run return the directives ahead.
-/

namespace Stencil

open Text

variable {text : List Char}

/-! ## What there is to be found -/

namespace Finder

/-- The directive that a rule finds at a place: its preferred match there, unless that is
empty. -/
def directiveAt? (f : Finder text) (offset : Nat) : Option Directive :=
  (f.search.nonempty? offset).map f.directive

def firstAt? (fs : List (Finder text)) (offset : Nat) : Option Directive :=
  fs.findSome? (·.directiveAt? offset)

theorem directiveAt?_eq_some {f : Finder text} {offset : Nat} {d : Directive}
    (h : f.directiveAt? offset = some d) :
    d.start = offset ∧ d.start < d.stop ∧ IsBoundary text d.stop := by
  obtain ⟨m, hm, rfl⟩ := Option.map_eq_some_iff.mp h
  obtain ⟨hAt, hFull⟩ := Search.nonempty?_eq_some.mp hm
  obtain ⟨-, hStop, hle⟩ := f.search.at?_liesIn hAt
  have hne : m.stop ≠ m.start := by simpa [Match.isEmpty] using hFull
  refine ⟨f.search.at?_start hAt, ?_, hStop⟩
  show m.start < m.stop
  omega

theorem firstAt?_eq_some {fs : List (Finder text)} {offset : Nat} {d : Directive}
    (h : firstAt? fs offset = some d) :
    d.start = offset ∧ d.start < d.stop ∧ IsBoundary text d.stop := by
  obtain ⟨f, -, hf⟩ := List.exists_of_findSome?_eq_some h
  exact directiveAt?_eq_some hf

theorem firstAt?_cons (f : Finder text) (fs : List (Finder text)) (offset : Nat) :
    firstAt? (f :: fs) offset = (f.directiveAt? offset).or (firstAt? fs offset) := by
  rw [firstAt?, List.findSome?_cons]
  cases f.directiveAt? offset with
  | none => rfl
  | some d => rfl

end Finder

/-- The directive that starts at a place: of the kinds that match there the one of
highest priority. -/
def RuleSet.directiveAt? (rules : RuleSet) (text : List Char) (offset : Nat) :
    Option Directive :=
  Finder.firstAt? (rules.finders text) offset

/-- The directives from a place on: each time the first that starts there or later, then
those from its end on. -/
inductive RuleSet.Scans (rules : RuleSet) (text : List Char) : Nat → List Directive → Prop
  | stop {cursor : Nat} : FirstFrom (rules.directiveAt? text) cursor none →
      Scans rules text cursor []
  | found {cursor : Nat} {d : Directive} {ds : List Directive} :
      FirstFrom (rules.directiveAt? text) cursor (some d) → Scans rules text d.stop ds →
      Scans rules text cursor (d :: ds)

theorem RuleSet.Scans.unique {rules : RuleSet} {cursor : Nat} {ds es : List Directive}
    (h₁ : rules.Scans text cursor ds) (h₂ : rules.Scans text cursor es) : ds = es := by
  induction h₁ generalizing es with
  | stop hNone =>
    cases h₂ with
    | stop => rfl
    | found hSome => exact nomatch hNone.unique hSome
  | found hFirst _ ih =>
    cases h₂ with
    | stop hNone => exact nomatch hNone.unique hFirst
    | found hFirst' hRest =>
      obtain rfl := Option.some.inj (hFirst.unique hFirst')
      rw [ih hRest]

/-! ## The first of several -/

/-- Of two directives the one that starts first; of two that start at one place the
first. -/
def earlier : Option Directive → Option Directive → Option Directive
  | some d, some e => if e.start < d.start then some e else some d
  | some d, none => some d
  | none, e => e

theorem FirstFrom.earlier {first second : Nat → Option Directive} {offset : Nat}
    {d e : Option Directive} (hd : FirstFrom first offset d) (he : FirstFrom second offset e)
    (hFirst : ∀ {i c}, first i = some c → c.start = i)
    (hSecond : ∀ {i c}, second i = some c → c.start = i) :
    FirstFrom (fun i => (first i).or (second i)) offset (earlier d e) := by
  cases d with
  | none =>
    cases e with
    | none =>
      intro i hi
      simp only [hd i hi, he i hi, Option.or_none]
    | some e =>
      obtain ⟨i, hi, hAt, hUntil⟩ := he
      refine ⟨i, hi, ?_, fun j hj hlt => ?_⟩
      · simp only [hd i hi, hAt, Option.none_or]
      · simp only [hd j hj, hUntil j hj hlt, Option.or_none]
  | some d =>
    obtain ⟨hi, hAt, hUntil⟩ := (FirstFrom.some_iff hFirst).mp hd
    cases e with
    | none =>
      refine ⟨d.start, hi, ?_, fun j hj hlt => ?_⟩
      · simp only [hAt, Option.some_or]
      · simp only [he j hj, hUntil j hj hlt, Option.or_none]
    | some e =>
      obtain ⟨hi', hAt', hUntil'⟩ := (FirstFrom.some_iff hSecond).mp he
      rw [Stencil.earlier]
      -- before the one that starts first neither kind has any
      by_cases hlt : e.start < d.start
      · rw [if_pos hlt]
        refine ⟨e.start, hi', ?_, fun j hj hj' => ?_⟩
        · simp only [hUntil e.start hi' hlt, hAt', Option.none_or]
        · simp only [hUntil j hj (Nat.lt_trans hj' hlt), hUntil' j hj hj', Option.or_none]
      · rw [if_neg hlt]
        refine ⟨d.start, hi, ?_, fun j hj hj' => ?_⟩
        · simp only [hAt, Option.some_or]
        · simp only [hUntil j hj hj', hUntil' j hj (by omega), Option.or_none]

/-! ## What a lane remembers -/

namespace Lane

variable {offset later : Nat} {l : Lane text} {ls : List (Lane text)}

def IsFresh (offset : Nat) (l : Lane text) : Prop :=
  FirstFrom l.finder.search.nonempty? offset l.next?

/-- Whether what a lane remembers is true from an offset on: it knows nothing, or its
match has been passed, or its match is the first. -/
def Faithful (offset : Nat) (l : Lane text) : Prop :=
  l.isStale offset = false → l.IsFresh offset

theorem faithful_clear (offset : Nat) (l : Lane text) : l.clear.Faithful offset :=
  fun h => nomatch h

theorem IsFresh.faithful (h : l.IsFresh offset) : l.Faithful offset := fun _ => h

/-- **A memory stays true while the cursor moves on.** -/
theorem Faithful.mono (h : l.Faithful offset) (hle : offset ≤ later) : l.Faithful later := by
  intro hStale
  have hBefore : l.isStale offset = false := by
    rw [isStale] at hStale ⊢
    split at hStale
    · cases hStale
    · rfl
    · simp only [decide_eq_false_iff_not] at hStale ⊢
      omega
  refine FirstFrom.mono (h hBefore) hle fun m i hNext hm => ?_
  have hStart := Search.nonempty?_start hm
  rw [next?] at hNext
  rw [isStale] at hStale
  split at hNext
  · rename_i n hFound
    obtain rfl := Option.some.inj hNext
    rw [hFound] at hStale
    simp only [decide_eq_false_iff_not] at hStale
    omega
  · cases hNext

/-- A lane that is stale searches, any other knows. -/
theorem Faithful.isFresh_refresh (h : l.Faithful offset) (hOffset : IsBoundary text offset) :
    (l.refresh offset).IsFresh offset := by
  have hFind := l.finder.search.find?_first hOffset
  rw [refresh]
  cases hStale : l.isStale offset with
  | false => exact h hStale
  | true =>
    simp only [if_true]
    split
    · rename_i m hm
      rw [hm] at hFind
      exact hFind
    · rename_i hm
      rw [hm] at hFind
      exact hFind

@[simp] theorem finder_refresh (l : Lane text) (offset : Nat) :
    (l.refresh offset).finder = l.finder := by
  rw [refresh]
  split
  · split <;> rfl
  · rfl

theorem IsFresh.directiveAt? (h : l.IsFresh offset) :
    FirstFrom l.finder.directiveAt? offset (l.next?.map l.finder.directive) :=
  FirstFrom.map h l.finder.directive

/-- What is chosen of a lane and others: the next of the lane, unless one of the others
starts before. -/
theorem choose_cons (l : Lane text) (ls : List (Lane text)) :
    (choose (l :: ls)).map (fun (f, m, _) => f.directive m) =
      earlier (l.next?.map l.finder.directive)
        ((choose ls).map fun (f, m, _) => f.directive m) := by
  rw [choose]
  cases l.next? with
  | none =>
    cases choose ls with
    | none => rfl
    | some c => rfl
  | some m =>
    cases choose ls with
    | none => rfl
    | some c =>
      obtain ⟨f, n, ls'⟩ := c
      by_cases hlt : n.start < m.start
      · have hlt' : (f.directive n).start < (l.finder.directive m).start := hlt
        simp only [Option.map_some, hlt, hlt', earlier, if_true]
      · have hlt' : ¬ (f.directive n).start < (l.finder.directive m).start := hlt
        simp only [Option.map_some, hlt, hlt', earlier, if_false]

/-- **Fresh lanes know the first directive**: the chosen match makes it. -/
theorem choose_first (h : ∀ l ∈ ls, l.IsFresh offset) :
    FirstFrom (Finder.firstAt? (ls.map (·.finder))) offset
      ((choose ls).map fun (f, m, _) => f.directive m) := by
  induction ls with
  | nil => exact fun i _ => rfl
  | cons l ls ih =>
    have hHead := (h l List.mem_cons_self).directiveAt?
    have hTail := ih fun k hk => h k (List.mem_cons_of_mem l hk)
    rw [choose_cons]
    have hCons : Finder.firstAt? ((l :: ls).map (·.finder)) = fun i =>
        (l.finder.directiveAt? i).or (Finder.firstAt? (ls.map (·.finder)) i) :=
      funext fun i => Finder.firstAt?_cons l.finder _ i
    rw [hCons]
    exact hHead.earlier hTail (fun hd => (Finder.directiveAt?_eq_some hd).1)
      fun hd => (Finder.firstAt?_eq_some hd).1

theorem finder_choose {f : Finder text} {m : Match} {ls' : List (Lane text)}
    (h : choose ls = some (f, m, ls')) : ls'.map (·.finder) = ls.map (·.finder) := by
  induction ls generalizing f m ls' with
  | nil => cases h
  | cons l ls ih =>
    rw [choose] at h
    split at h
    · rename_i hChoose
      split at h
      · cases h
        simp only [List.map_cons, ih hChoose]
      · cases h
        rfl
    · cases h
      rfl
    · rename_i hChoose
      cases h
      simp only [List.map_cons, ih hChoose]
    · cases h

theorem mem_choose {f : Finder text} {m : Match} {ls' : List (Lane text)}
    (h : choose ls = some (f, m, ls')) : ∀ k ∈ ls', k ∈ ls ∨ ∃ l ∈ ls, k = l.clear := by
  induction ls generalizing f m ls' with
  | nil => cases h
  | cons l ls ih =>
    have hKeep {g : Finder text} {n : Match} {ks : List (Lane text)}
        (hChoose : choose ls = some (g, n, ks)) :
        ∀ k ∈ l :: ks, k ∈ l :: ls ∨ ∃ j ∈ l :: ls, k = j.clear := by
      intro k hk
      rcases List.mem_cons.mp hk with rfl | hk
      · exact .inl List.mem_cons_self
      · rcases ih hChoose k hk with hk | ⟨j, hj, rfl⟩
        · exact .inl (List.mem_cons_of_mem l hk)
        · exact .inr ⟨j, List.mem_cons_of_mem l hj, rfl⟩
    have hClear : ∀ k ∈ l.clear :: ls, k ∈ l :: ls ∨ ∃ j ∈ l :: ls, k = j.clear := by
      intro k hk
      rcases List.mem_cons.mp hk with rfl | hk
      · exact .inr ⟨l, List.mem_cons_self, rfl⟩
      · exact .inl (List.mem_cons_of_mem l hk)
    rw [choose] at h
    split at h
    · rename_i hChoose
      split at h
      · cases h
        exact hKeep hChoose
      · cases h
        exact hClear
    · cases h
      exact hClear
    · rename_i hChoose
      cases h
      exact hKeep hChoose
    · cases h

end Lane

/-! ## A step of a scan -/

namespace Scanner

variable {rules : RuleSet} {s : Scanner text}

/-- What holds of a scan at all times: its lanes are those of the rules, they remember
what is true, and the cursor cuts no character. -/
structure Valid (rules : RuleSet) (s : Scanner text) : Prop where
  finders : s.lanes.map (·.finder) = rules.finders text
  faithful : ∀ l ∈ s.lanes, l.Faithful s.cursor
  cursor : IsBoundary text s.cursor

/-- The directives that a scan has yet to return: the one that is pending, and those from
the cursor on unless it is finished. -/
def Yields (rules : RuleSet) (s : Scanner text) (ds : List Directive) : Prop :=
  ∃ es, ds = s.pending.toList ++ es ∧
    if s.finished then es = [] else rules.Scans text s.cursor es

def ahead (s : Scanner text) : Nat :=
  2 * (byteLength text - s.cursor) + s.pending.isSome.toNat + (!s.finished).toNat

theorem Valid.move (h : s.Valid rules) {cursor : Nat} (hle : s.cursor ≤ cursor)
    (hCursor : IsBoundary text cursor) (pending : Option Directive) (finished : Bool) :
    Valid rules { s with cursor, pending, finished } where
  finders := h.finders
  faithful l hl := (h.faithful l hl).mono hle
  cursor := hCursor

theorem valid_start (rules : RuleSet) (text : List Char) :
    (start (rules.finders text)).Valid rules where
  finders := by
    rw [start, List.map_map]
    exact List.map_id _
  faithful l hl := by
    obtain ⟨f, -, rfl⟩ := List.mem_map.mp hl
    exact fun h => nomatch h
  cursor := isBoundary_zero text

/-- **The next directive is the first from the cursor on**, whatever was remembered. -/
theorem Valid.nextDirective (h : s.Valid rules) :
    FirstFrom (rules.directiveAt? text) s.cursor s.nextDirective.1 ∧
      ∃ lanes, s.nextDirective.2 = { s with lanes } ∧ Valid rules { s with lanes } := by
  have hFresh : ∀ l ∈ s.lanes.map (·.refresh s.cursor), l.IsFresh s.cursor := by
    intro l hl
    obtain ⟨k, hk, rfl⟩ := List.mem_map.mp hl
    exact (h.faithful k hk).isFresh_refresh h.cursor
  have hFinders : (s.lanes.map (·.refresh s.cursor)).map (·.finder) = rules.finders text := by
    rw [List.map_map, ← h.finders]
    exact List.map_congr_left fun l _ => l.finder_refresh s.cursor
  have hFirst := Lane.choose_first hFresh
  rw [hFinders] at hFirst
  rw [Scanner.nextDirective]
  cases hChoose : Lane.choose (s.lanes.map (·.refresh s.cursor)) with
  | none =>
    rw [hChoose] at hFirst
    exact ⟨hFirst, _, rfl, hFinders, fun l hl => (hFresh l hl).faithful, h.cursor⟩
  | some c =>
    obtain ⟨f, m, lanes⟩ := c
    rw [hChoose] at hFirst
    refine ⟨hFirst, lanes, rfl, (Lane.finder_choose hChoose).trans hFinders, ?_, h.cursor⟩
    intro k hk
    rcases Lane.mem_choose hChoose k hk with hk | ⟨l, -, rfl⟩
    · exact (hFresh k hk).faithful
    · exact l.faithful_clear s.cursor

/-- A step of a scan that returns a token: less is ahead after it, and what the scan has
yet to return is the directive of the token, if it is one, and what is left then. -/
structure Step (rules : RuleSet) (s : Scanner text) (t : Token) (after : Scanner text) :
    Prop where
  valid : after.Valid rules
  ahead : after.ahead < s.ahead
  yields : ∀ ds, after.Yields rules ds → s.Yields rules (t.directive?.toList ++ ds)

def Steps (rules : RuleSet) (s : Scanner text) : Option Token × Scanner text → Prop
  | (some t, after) => Step rules s t after
  | (none, _) => s.Yields rules []

/-- What a scan does is told by its cursor, not by what its lanes remember. -/
theorem Steps.of_lanes {lanes : List (Lane text)} {r : Option Token × Scanner text}
    (h : Steps rules { s with lanes } r) : s.Steps rules r := by
  obtain ⟨t, after⟩ := r
  cases t with
  | none => exact h
  | some t => exact ⟨h.valid, h.ahead, h.yields⟩

theorem yields_iff_scans (hPending : s.pending = none) (hFinished : s.finished = false)
    {ds : List Directive} : s.Yields rules ds ↔ rules.Scans text s.cursor ds := by
  simp only [Yields, hPending, hFinished, Option.toList_none, List.nil_append,
    Bool.false_eq_true, if_false, exists_eq_left']

theorem Valid.reach (h : s.Valid rules) (hPending : s.pending = none)
    (hFinished : s.finished = false) {d : Directive}
    (hFirst : FirstFrom (rules.directiveAt? text) s.cursor (some d)) :
    s.Steps rules (s.reach d) := by
  have hStart {i : Nat} {e : Directive} (he : rules.directiveAt? text i = some e) :=
    (Finder.firstAt?_eq_some he).1
  obtain ⟨hle, hAt, -⟩ := (FirstFrom.some_iff hStart).mp hFirst
  obtain ⟨-, hlt, hStop⟩ := Finder.firstAt?_eq_some hAt
  have hLength := hStop.le
  have hMove := h.move (Nat.le_trans hle (Nat.le_of_lt hlt)) hStop
  rw [Scanner.reach]
  split
  · refine ⟨hMove s.pending s.finished, ?_, fun ds hds => ?_⟩
    · simp only [Scanner.ahead]
      omega
    · have hScans := (yields_iff_scans (s := { s with cursor := d.stop }) hPending hFinished).mp hds
      exact (yields_iff_scans hPending hFinished).mpr (.found hFirst hScans)
  · refine ⟨hMove (some d) s.finished, ?_, fun ds hds => ?_⟩
    · simp only [Scanner.ahead, hPending, Option.isSome_some, Option.isSome_none,
        Bool.toNat_true, Bool.toNat_false]
      omega
    · obtain ⟨es, rfl, hes⟩ := hds
      simp only [hFinished, Bool.false_eq_true, if_false] at hes
      exact (yields_iff_scans hPending hFinished).mpr (.found hFirst hes)

theorem Valid.finish (h : s.Valid rules) (hPending : s.pending = none)
    (hFinished : s.finished = false)
    (hFirst : FirstFrom (rules.directiveAt? text) s.cursor none) :
    s.Steps rules s.finish := by
  have hStop : s.Yields rules [] := (yields_iff_scans hPending hFinished).mpr (.stop hFirst)
  rw [Scanner.finish]
  cases (dropBytes s.cursor text).isEmpty with
  | true => exact hStop
  | false =>
    refine ⟨h.move h.cursor.le (isBoundary_byteLength text) s.pending true, ?_, fun ds hds => ?_⟩
    · simp only [Scanner.ahead, hFinished, Bool.not_true, Bool.not_false, Bool.toNat_true,
        Bool.toNat_false]
      omega
    · obtain ⟨es, rfl, hes⟩ := hds
      obtain rfl : es = [] := hes
      rw [hPending]
      exact hStop

theorem Valid.next (h : s.Valid rules) : s.Steps rules s.next := by
  rw [Scanner.next]
  cases hPending : s.pending with
  | some d =>
    refine ⟨h.move (Nat.le_refl _) h.cursor none s.finished, ?_, fun ds hds => ?_⟩
    · simp only [Scanner.ahead, hPending, Option.isSome_some, Option.isSome_none,
        Bool.toNat_true, Bool.toNat_false]
      omega
    · obtain ⟨es, hSplit, hes⟩ := hds
      exact ⟨es, by rw [hPending, hSplit]; rfl, hes⟩
  | none =>
    cases hFinished : s.finished with
    | true => exact ⟨[], by rw [hPending]; rfl, by rw [hFinished, if_pos rfl]⟩
    | false =>
      obtain ⟨hFirst, lanes, hAfter, hValid⟩ := h.nextDirective
      simp only [Bool.false_eq_true, if_false]
      cases hNext : s.nextDirective with
      | mk found after =>
        rw [hNext] at hFirst hAfter
        obtain rfl := hAfter
        cases found with
        | some d => exact (hValid.reach hPending hFinished hFirst).of_lanes
        | none => exact (hValid.finish hPending hFinished hFirst).of_lanes

/-! ## A run of a scan -/

/-- **A scan returns the directives ahead.** -/
theorem Valid.run (fuel : Nat) (h : s.Valid rules) (hFuel : s.ahead < fuel) :
    s.Yields rules (((s.run fuel).1.map (·.1)).filterMap Token.directive?) := by
  induction fuel generalizing s with
  | zero => exact absurd hFuel (Nat.not_lt_zero _)
  | succ fuel ih =>
    have hNext := h.next
    rw [Scanner.run]
    cases hStep : s.next with
    | mk t after =>
      rw [hStep] at hNext
      cases t with
      | none => exact hNext
      | some t =>
        have hRest := ih hNext.valid (by have := hNext.ahead; omega)
        have hYields := hNext.yields _ hRest
        rw [List.map_cons, List.filterMap_cons]
        cases hDirective : t.directive? with
        | none =>
          rw [hDirective] at hYields
          exact hYields
        | some d =>
          rw [hDirective] at hYields
          exact hYields

end Scanner

/-- **What a scan remembers does not show**: the directives among the tokens of a text are
those of the scan that searches anew at every place. -/
theorem RuleSet.directives_tokens_eq_iff (rules : RuleSet) (text : String)
    (ds : List Directive) :
    (rules.tokens text).filterMap Token.directive? = ds ↔ rules.Scans text.toList 0 ds := by
  have hAhead : (Scanner.start (rules.finders text.toList)).ahead <
      2 * byteLength text.toList + 2 := by
    simp only [Scanner.ahead, Scanner.start, Option.isSome_none, Bool.not_false,
      Bool.toNat_false, Bool.toNat_true]
    omega
  have hYields := (Scanner.valid_start rules text.toList).run _ hAhead
  have hScans : rules.Scans text.toList 0 ((rules.tokens text).filterMap Token.directive?) :=
    (Scanner.yields_iff_scans rfl rfl).mp hYields
  exact ⟨fun h => h ▸ hScans, hScans.unique⟩

end Stencil
