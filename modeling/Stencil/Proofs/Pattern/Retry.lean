import Stencil.Directive
import Stencil.Proofs.Result

/-!
# Searching on after empty matches

A search for a match that is not empty asks for the first match, and after an empty one it asks
again one character later, until it is past the end of the text.  It asks at boundaries of the
text only, and so does it look for the character after an empty match.

* `Search.Access`: a place at which the search asks for a match or looks at the text.
* `Search.Retries`: the turns of the search, with its accesses and its outcome.
* `Search.Skips`: what a turn that goes on has passed (`Search.skips_retryAt`).
* `Search.Retries.unique`, `Search.exists_retries`: there is one run from each place.
* `Search.Retries.congr`: a run depends on no other answers than those it asks for.
* `Search.Retries.sound`: what holds of a whole run.
* `Rule.find?_retries`: what a rule finds is the outcome of this run.
-/

namespace Stencil

open Text

namespace Search

/-! ## Turns -/

/-- A place that a search needs to be a boundary of the text. -/
inductive Access where
  /-- The first match from here on is asked for. -/
  | ask (offset : Nat)
  /-- The text is cut here, to see what follows an empty match. -/
  | cut (offset : Nat)
  deriving DecidableEq, Repr

def Access.offset : Access → Nat
  | ask i => i
  | cut i => i

/-- Where a search goes on after an empty match: one character later, or past the end. -/
def retryAt (text : List Char) (offset : Nat) : Nat :=
  match dropBytes offset text with
  | [] => offset + 1
  | c :: _ => offset + c.utf8Size

variable {text : List Char} {s t : Search text} {offset : Nat}

theorem retryAt_of_nil (h : dropBytes offset text = []) : retryAt text offset = offset + 1 := by
  rw [retryAt, h]

theorem retryAt_of_cons {c : Char} {cs : List Char} (h : dropBytes offset text = c :: cs) :
    retryAt text offset = offset + c.utf8Size := by
  rw [retryAt, h]

/-- The turns of a search for a match that is not empty, with its accesses and its outcome. -/
inductive Retries (s : Search text) : Nat → List Access → Option Match → Prop
  | past {offset : Nat} : byteLength text < offset → Retries s offset [] none
  | missed {offset : Nat} : offset ≤ byteLength text → s.from? offset = none →
      Retries s offset [.ask offset] none
  | found {offset : Nat} {m : Match} : offset ≤ byteLength text → s.from? offset = some m →
      m.isEmpty = false → Retries s offset [.ask offset] (some m)
  | again {offset : Nat} {m : Match} {as : List Access} {r : Option Match} :
      offset ≤ byteLength text → s.from? offset = some m → m.isEmpty = true →
      Retries s (retryAt text m.start) as r →
      Retries s offset (.ask offset :: .cut m.start :: as) r

/-- Whether a search may be at an offset: at a boundary, or past the end. -/
def MayStand (text : List Char) (offset : Nat) : Prop :=
  IsBoundary text offset ∨ byteLength text < offset

structure Skips (s : Search text) (offset next : Nat) : Prop where
  lt : offset < next
  mayStand : MayStand text next
  eq_none : ∀ i, offset ≤ i → i < next → s.nonempty? i = none

/-- **A turn goes on at a later boundary, or past the end**, and passes no match that is not
empty. -/
theorem skips_retryAt {m : Match} (hOffset : IsBoundary text offset)
    (hFrom : s.from? offset = some m) (hEmpty : m.isEmpty = true) :
    s.Skips offset (retryAt text m.start) := by
  obtain ⟨hle, hAt, -⟩ := of_from?_eq_some hOffset hFrom
  have hStart := (s.at?_liesIn hAt).1
  cases hDrop : dropBytes m.start text with
  | nil =>
    have hEnd := hStart.eq_byteLength hDrop
    rw [retryAt_of_nil hDrop]
    refine ⟨by omega, .inr (by omega), fun i hi hlt => ?_⟩
    exact nonempty?_eq_none_of_le hOffset hFrom hEmpty i hi (Nat.le_of_lt_succ hlt)
  | cons c cs =>
    have hSize := c.utf8Size_pos
    rw [retryAt_of_cons hDrop]
    exact ⟨by omega, .inl (hStart.next hDrop),
      nonempty?_eq_none_of_lt_next hOffset hFrom hEmpty hDrop⟩

/-! ## Runs -/

/-- **A run has one list of accesses and one outcome.** -/
theorem Retries.unique {as bs : List Access} {r q : Option Match} (h₁ : s.Retries offset as r)
    (h₂ : s.Retries offset bs q) : as = bs ∧ r = q := by
  induction h₁ generalizing bs q with
  | past hPast =>
    cases h₂ with
    | past => exact ⟨rfl, rfl⟩
    | missed hle | found hle | again hle => exact absurd hPast (Nat.not_lt.mpr hle)
  | missed hle hNone =>
    cases h₂ with
    | past hPast => exact absurd hPast (Nat.not_lt.mpr hle)
    | missed => exact ⟨rfl, rfl⟩
    | found _ hSome | again _ hSome => exact nomatch hNone.symm.trans hSome
  | found hle hSome hFull =>
    cases h₂ with
    | past hPast => exact absurd hPast (Nat.not_lt.mpr hle)
    | missed _ hNone => exact nomatch hNone.symm.trans hSome
    | found _ hSome' => exact ⟨rfl, hSome.symm.trans hSome'⟩
    | again _ hSome' hEmpty =>
      obtain rfl := Option.some.inj (hSome.symm.trans hSome')
      exact nomatch hFull.symm.trans hEmpty
  | again hle hSome hEmpty _ ih =>
    cases h₂ with
    | past hPast => exact absurd hPast (Nat.not_lt.mpr hle)
    | missed _ hNone => exact nomatch hNone.symm.trans hSome
    | found _ hSome' hFull =>
      obtain rfl := Option.some.inj (hSome.symm.trans hSome')
      exact nomatch hFull.symm.trans hEmpty
    | again _ hSome' _ hRest =>
      obtain rfl := Option.some.inj (hSome.symm.trans hSome')
      obtain ⟨rfl, rfl⟩ := ih hRest
      exact ⟨rfl, rfl⟩

/-- **A run depends on no other answers than those it asks for.** -/
theorem Retries.congr {as : List Access} {r : Option Match} (h : s.Retries offset as r)
    (hSame : ∀ i, .ask i ∈ as → t.from? i = s.from? i) : t.Retries offset as r := by
  induction h with
  | past hPast => exact .past hPast
  | missed hle hNone => exact .missed hle ((hSame _ List.mem_cons_self).trans hNone)
  | found hle hSome hFull => exact .found hle ((hSame _ List.mem_cons_self).trans hSome) hFull
  | again hle hSome hEmpty _ ih =>
    refine .again hle ((hSame _ List.mem_cons_self).trans hSome) hEmpty (ih fun i hi => hSame i ?_)
    exact List.mem_cons_of_mem _ (List.mem_cons_of_mem _ hi)

/-- **Every run ends**, since each turn comes nearer to the end of the text. -/
theorem exists_retries (s : Search text) (h : MayStand text offset) :
    ∃ as r, s.Retries offset as r := by
  induction hAhead : byteLength text + 1 - offset using Nat.strongRecOn generalizing offset with
  | ind n ih =>
    subst hAhead
    rcases h with hOffset | hPast
    · have hle := hOffset.le
      cases hFrom : s.from? offset with
      | none => exact ⟨_, _, .missed hle hFrom⟩
      | some m =>
        cases hEmpty : m.isEmpty with
        | false => exact ⟨_, _, .found hle hFrom hEmpty⟩
        | true =>
          have hSkips := skips_retryAt hOffset hFrom hEmpty
          have hlt := hSkips.lt
          obtain ⟨as, r, hRest⟩ := ih _ (by omega) hSkips.mayStand rfl
          exact ⟨_, _, .again hle hFrom hEmpty hRest⟩
    · exact ⟨_, _, .past hPast⟩

/-- What holds of a run: it asks and looks at boundaries only, twice at most for each byte that is
ahead and for the end, and its outcome is the first match that is not empty. -/
structure Sound (s : Search text) (offset : Nat) (as : List Access) (r : Option Match) : Prop where
  isBoundary : ∀ a ∈ as, IsBoundary text a.offset
  length_le : as.length ≤ 2 * (byteLength text + 1 - offset)
  first : FirstFrom s.nonempty? offset r

/-- **Every run is sound.** -/
theorem Retries.sound {as : List Access} {r : Option Match} (h : s.Retries offset as r)
    (hOffset : MayStand text offset) : s.Sound offset as r := by
  induction h with
  | past hPast =>
    refine ⟨nofun, Nat.zero_le _, fun i hi => nonempty?_of_at?_eq_none ?_⟩
    exact s.at?_eq_none_of_byteLength_lt (Nat.lt_of_lt_of_le hPast hi)
  | @missed offset hle hNone =>
    have hBoundary : IsBoundary text offset := hOffset.resolve_right (Nat.not_lt.mpr hle)
    have hFirst := s.from?_first hBoundary
    rw [hNone] at hFirst
    refine ⟨List.forall_mem_singleton.mpr hBoundary, ?_, fun i hi => ?_⟩
    · rw [List.length_singleton]
      omega
    · exact nonempty?_of_at?_eq_none (hFirst i hi)
  | @found offset m hle hSome hFull =>
    have hBoundary : IsBoundary text offset := hOffset.resolve_right (Nat.not_lt.mpr hle)
    obtain ⟨hStart, hAt, hUntil⟩ := of_from?_eq_some hBoundary hSome
    refine ⟨List.forall_mem_singleton.mpr hBoundary, ?_, m.start, hStart,
      nonempty?_eq_some.mpr ⟨hAt, hFull⟩, fun i hi hlt => ?_⟩
    · rw [List.length_singleton]
      omega
    · exact nonempty?_of_at?_eq_none (hUntil i hi hlt)
  | @again offset m as r hle hSome hEmpty _ ih =>
    have hBoundary : IsBoundary text offset := hOffset.resolve_right (Nat.not_lt.mpr hle)
    obtain ⟨-, hAt, -⟩ := of_from?_eq_some hBoundary hSome
    obtain ⟨hlt, hMayStand, hNone⟩ := skips_retryAt hBoundary hSome hEmpty
    have hRest := ih hMayStand
    refine ⟨?_, ?_, hRest.first.extend (Nat.le_of_lt hlt) hNone⟩
    · exact List.forall_mem_cons.mpr ⟨hBoundary,
        List.forall_mem_cons.mpr ⟨(s.at?_liesIn hAt).1, hRest.isBoundary⟩⟩
    -- a turn has two accesses and passes a byte at least
    · have hLength := hRest.length_le
      rw [List.length_cons, List.length_cons]
      omega

theorem Retries.eq_find? {as : List Access} {r : Option Match} (h : s.Retries offset as r)
    (hOffset : IsBoundary text offset) : r = s.find? offset :=
  (h.sound (.inl hOffset)).first.unique (s.find?_first hOffset)

end Search

/-! ## Rules -/

/-- **A rule finds the first match that is not empty**, wherever in a text it begins: there is one
run from there, which ends after two accesses at most for each byte ahead and for the end, asks
and looks at boundaries of the text only, and has no other outcome.  What is found is the match
at the least place from there on where the preferred match is not empty, and it depends on no
answers but those that the run asks for. -/
theorem Rule.find?_retries (rule : Rule) (text : List Char) (offset : Nat)
    (hOffset : IsBoundary text offset) :
    ∃ accesses : List Search.Access,
      (∀ as r, (rule.search text).Retries offset as r ↔
        as = accesses ∧ r = (rule.search text).find? offset) ∧
      accesses.length ≤ 2 * (byteLength text + 1 - offset) ∧
      (∀ a ∈ accesses, IsBoundary text a.offset ∧ a.offset ≤ byteLength text) ∧
      (∀ other : Search text,
        (∀ i, .ask i ∈ accesses → other.from? i = (rule.search text).from? i) →
        other.find? offset = (rule.search text).find? offset) ∧
      FirstFrom (rule.search text).nonempty? offset ((rule.search text).find? offset) := by
  obtain ⟨accesses, r, hRun⟩ := (rule.search text).exists_retries (.inl hOffset)
  obtain rfl := hRun.eq_find? hOffset
  have hSound := hRun.sound (.inl hOffset)
  refine ⟨accesses, fun as r => ⟨fun h => h.unique hRun, ?_⟩, hSound.length_le, fun a ha => ?_,
    fun other hSame => ?_, hSound.first⟩
  · rintro ⟨rfl, rfl⟩
    exact hRun
  · exact ⟨hSound.isBoundary a ha, (hSound.isBoundary a ha).le⟩
  · exact ((hRun.congr hSame).eq_find? hOffset).symm

/-- Behind the only match there are empty ones: before two characters of two bytes, and at the end
of the text. -/
theorem Rule.find?_retries_empty :
    let text := "xéé".toList
    let accesses : List Search.Access := [.ask 1, .cut 1, .ask 3, .cut 3, .ask 5, .cut 5]
    ∃ rule, Rule.make .terminate "x*" = .ok rule ∧ IsBoundary text 1 ∧
      (∀ as r, (rule.search text).Retries 1 as r ↔ as = accesses ∧ r = none) ∧
      accesses.length ≤ 2 * (byteLength text + 1 - 1) ∧
      (∀ a ∈ accesses, IsBoundary text a.offset ∧ a.offset ≤ byteLength text) ∧
      (∀ other : Search text,
        (∀ i, .ask i ∈ accesses → other.from? i = (rule.search text).from? i) →
        other.find? 1 = none) ∧
      FirstFrom (rule.search text).nonempty? 1 none := by
  intro text accesses
  have hAnswers : ∀ rule ∈ (Rule.make .terminate "x*").toOption, ∀ i ∈ [1, 3, 5],
      (rule.search text).from? i = some ⟨i, i, []⟩ := by
    decide +kernel
  obtain ⟨rule, hMake, hFrom⟩ := Except.exists_eq_ok (by decide +kernel) hAnswers
  have hOffset : IsBoundary text 1 := ⟨['x'], ['é', 'é'], rfl, by decide⟩
  have hLength : byteLength text = 5 := by decide
  have hRun : (rule.search text).Retries 1 accesses none :=
    .again (by omega) (hFrom 1 (by decide)) rfl
      (.again (by omega) (hFrom 3 (by decide)) rfl
        (.again (by omega) (hFrom 5 (by decide)) rfl (.past (by decide))))
  obtain ⟨as, hRuns, hRest⟩ := find?_retries rule text 1 hOffset
  obtain ⟨rfl, hFind⟩ := (hRuns _ _).mp hRun
  rw [← hFind] at hRuns hRest
  exact ⟨rule, hMake, hOffset, hRuns, hRest⟩

end Stencil
