import Stencil.Proofs.Pattern.Takes
import Stencil.Proofs.Result
import Stencil.Proofs.Standard.Form

/-!
# Patterns of the standard dialect

The patterns of the standard dialect are words, blanks and groups one after another.

* `Node.takes_letters`, `Node.takes_blanks`, `Node.takes_captured`: what these take.
* `Node.insertion`, `Node.keyword`, `Node.block`: the three shapes of the patterns, and what
  they take (`Node.takes_keyword`, `Node.takes_block`, `Node.takes_loopInner`).
* `Pattern.exists_endsFirst_of_matchAt`: a directive that inserts a value goes to the first
  `%>`; what its pattern takes would not tell, since it may take more.
* `Pattern.standard`: the patterns of the dialect (`Pattern.parse_standard`).
-/

namespace Stencil

open Text

namespace CharSet

theorem forall_contains_compl_single {c : Char} {t : List Char} :
    (∀ x ∈ t, (compl (single c)).contains x = true) ↔ c ∉ t := by
  simp only [contains, contains_single, Bool.not_eq_true', beq_eq_false_iff_ne]
  exact ⟨fun h hc => h c hc rfl, fun h x hx hSame => h (hSame ▸ hx)⟩

theorem forall_contains_compl_union {c d : Char} {t : List Char} :
    (∀ x ∈ t, (compl (union (single c) (single d))).contains x = true) ↔ c ∉ t ∧ d ∉ t := by
  simp only [contains, contains_single, Bool.not_or, Bool.and_eq_true, Bool.not_eq_true',
    beq_eq_false_iff_ne]
  constructor
  · exact fun h => ⟨fun hc => (h c hc).1 rfl, fun hd => (h d hd).2 rfl⟩
  · exact fun h x hx => ⟨fun hSame => h.1 (hSame ▸ hx), fun hSame => h.2 (hSame ▸ hx)⟩

end CharSet

namespace Node

/-! ## Parts of patterns -/

def letter (c : Char) : Node Unit := .chars (.single c) ()

def letters (word : List Char) : List (Node Unit) := word.map letter

def blanks : Node Unit := .alt (.many true (.chars .blank ())) .empty

/-- Characters of a set, no more than needed, in a group. -/
def captured (i : Nat) (set : CharSet) : Node Unit := .group i (.many false (.chars set ()))

def insertion (sign : Char) : Node Unit :=
  .seqs (letters ['<', '%', sign] ++ captured 1 (.union .blank (.compl .blank)) ::
    letters ['%', '>'])

def keyword (word : List Char) : Node Unit :=
  .seqs (letters ['<', '%'] ++ blanks :: .group 1 (.seqs (letters word)) :: blanks ::
    letters ['%', '>'])

def block (word : List Char) (inner : List (Node Unit)) : Node Unit :=
  .seqs (letters ['<', '%'] ++ blanks :: (letters word ++ blanks :: letter '(' ::
    (inner ++ letter ')' :: blanks :: letters ['%', '>'])))

/-! ## What they take -/

section

variable {before s after : List Char} {ms : List Mark} {xs : List (Node Unit)}

theorem takes_letter {c : Char} :
    (seqs (letter c :: xs)).Takes before s after ms ↔
      ∃ t, s = c :: t ∧ (seqs xs).Takes (before ++ [c]) t after ms := by
  rw [takes_seqs_cons]
  constructor
  · rintro ⟨_, t, _, os, rfl, rfl, hc, hMore⟩
    obtain ⟨d, rfl, rfl, hd⟩ := takes_chars.mp hc
    obtain rfl := beq_iff_eq.mp ((CharSet.contains_single c d).symm.trans hd)
    exact ⟨t, rfl, hMore⟩
  · rintro ⟨t, rfl, hMore⟩
    exact ⟨[c], t, [], ms, rfl, rfl,
      .chars ((CharSet.contains_single c c).trans (beq_self_eq_true c)), hMore⟩

theorem takes_letters {word : List Char} :
    (seqs (letters word ++ xs)).Takes before s after ms ↔
      ∃ t, s = word ++ t ∧ (seqs xs).Takes (before ++ word) t after ms := by
  induction word generalizing before s with
  | nil =>
    rw [List.append_nil]
    exact ⟨fun h => ⟨s, rfl, h⟩, fun ⟨t, ht, h⟩ => ht ▸ h⟩
  | cons c word ih =>
    rw [List.append_cons]
    constructor
    · intro h
      obtain ⟨u, rfl, hRest⟩ := takes_letter.mp h
      obtain ⟨t, rfl, hMore⟩ := ih.mp hRest
      exact ⟨t, rfl, hMore⟩
    · rintro ⟨t, rfl, h⟩
      exact takes_letter.mpr ⟨word ++ t, rfl, ih.mpr ⟨t, rfl, h⟩⟩

theorem takes_blanks :
    (seqs (blanks :: xs)).Takes before s after ms ↔
      ∃ w t, s = w ++ t ∧ AllBlank w ∧ (seqs xs).Takes (before ++ w) t after ms := by
  rw [takes_seqs_cons]
  constructor
  · rintro ⟨w, t, ns, os, rfl, rfl, hw, hMore⟩
    cases hw with
    | first hMany =>
      obtain ⟨-, rfl, hAll⟩ := takes_many_chars.mp hMany
      exact ⟨w, t, rfl, hAll, hMore⟩
    | second hEmpty =>
      cases hEmpty
      exact ⟨[], t, rfl, nofun, hMore⟩
  · rintro ⟨w, t, rfl, hw, hMore⟩
    refine ⟨w, t, [], ms, rfl, rfl, ?_, hMore⟩
    by_cases hNil : w = []
    · subst hNil
      exact .second .empty
    · exact .first (takes_many_chars.mpr ⟨hNil, rfl, hw⟩)

theorem takes_captured {i : Nat} {set : CharSet} :
    (seqs (captured i set :: xs)).Takes before s after ms ↔
      ∃ g t ns, s = g ++ t ∧ (g ≠ [] ∧ ∀ c ∈ g, set.contains c = true) ∧
        ms = ⟨i, false, byteLength before⟩ :: ⟨i, true, byteLength (before ++ g)⟩ :: ns ∧
        (seqs xs).Takes (before ++ g) t after ns := by
  rw [takes_seqs_cons]
  constructor
  · rintro ⟨g, t, ns, os, rfl, rfl, hg, hMore⟩
    obtain ⟨ns, hMany, rfl⟩ := takes_group.mp hg
    obtain ⟨hSome, rfl, hAll⟩ := takes_many_chars.mp hMany
    exact ⟨g, t, os, rfl, ⟨hSome, hAll⟩, rfl, hMore⟩
  · rintro ⟨g, t, ns, rfl, ⟨hg, hAll⟩, rfl, hMore⟩
    exact ⟨g, t, _, ns, rfl, rfl,
      takes_group.mpr ⟨[], takes_many_chars.mpr ⟨hg, rfl, hAll⟩, rfl⟩, hMore⟩

theorem takes_seqs_letters {word : List Char} :
    (seqs (letters word)).Takes before s after ms ↔ s = word ∧ ms = [] := by
  rw [← List.append_nil (letters word), takes_letters]
  constructor
  · rintro ⟨t, rfl, hNil⟩
    obtain ⟨rfl, rfl⟩ := takes_seqs_nil.mp hNil
    exact ⟨List.append_nil word, rfl⟩
  · rintro ⟨rfl, rfl⟩
    exact ⟨[], (List.append_nil s).symm, .empty⟩

/-! ## What the patterns of directives take -/

theorem takes_keyword {word : List Char} :
    (∃ ms, (keyword word).Takes before s after ms) ↔
      ∃ w u, AllBlank w ∧ AllBlank u ∧ s = Form.keyword word w u := by
  constructor
  · rintro ⟨ms, h⟩
    obtain ⟨_, rfl, hAfter⟩ := takes_letters.mp h
    obtain ⟨w, _, rfl, hw, hWord⟩ := takes_blanks.mp hAfter
    obtain ⟨_, _, _, _, rfl, rfl, hGroup, hRest⟩ := takes_seqs_cons.mp hWord
    obtain ⟨_, hLetters, rfl⟩ := takes_group.mp hGroup
    obtain ⟨rfl, rfl⟩ := takes_seqs_letters.mp hLetters
    obtain ⟨u, _, rfl, hu, hEnd⟩ := takes_blanks.mp hRest
    obtain ⟨rfl, rfl⟩ := takes_seqs_letters.mp hEnd
    exact ⟨w, u, hw, hu, (Form.keyword_eq _ w u).symm⟩
  · rintro ⟨w, u, hw, hu, rfl⟩
    have hGroup : (group 1 (seqs (letters word))).Takes (before ++ ['<', '%'] ++ w) word
        (u ++ ['%', '>'] ++ after) _ :=
      takes_group.mpr ⟨[], takes_seqs_letters.mpr ⟨rfl, rfl⟩, rfl⟩
    have hRest : (seqs (blanks :: letters ['%', '>'])).Takes (before ++ ['<', '%'] ++ w ++ word)
        (u ++ ['%', '>']) after [] :=
      takes_blanks.mpr ⟨u, _, rfl, hu, takes_seqs_letters.mpr ⟨rfl, rfl⟩⟩
    have hWord := takes_seqs_cons.mpr ⟨word, _, _, _, rfl, rfl, hGroup, hRest⟩
    rw [Form.keyword_eq]
    exact ⟨_, takes_letters.mpr ⟨_, rfl, takes_blanks.mpr ⟨w, _, rfl, hw, hWord⟩⟩⟩

theorem takes_block {word : List Char} {inner : List (Node Unit)} :
    (block word inner).Takes before s after ms ↔
      ∃ w v t u, (AllBlank w ∧ AllBlank v ∧ AllBlank u) ∧ s = Form.block word w v t u ∧
        (seqs inner).Takes (before ++ Form.opening word w v) t ([')'] ++ u ++ ['%', '>'] ++ after)
          ms := by
  constructor
  · intro h
    obtain ⟨_, rfl, hAfter⟩ := takes_letters.mp h
    obtain ⟨w, _, rfl, hw, hWord⟩ := takes_blanks.mp hAfter
    obtain ⟨_, rfl, hParen⟩ := takes_letters.mp hWord
    obtain ⟨v, _, rfl, hv, hOpen⟩ := takes_blanks.mp hParen
    obtain ⟨_, rfl, hBoth⟩ := takes_letter.mp hOpen
    obtain ⟨t, _, ns, _, rfl, rfl, hInner, hClose⟩ := takes_seqs_append.mp hBoth
    obtain ⟨_, rfl, hBlanks⟩ := takes_letter.mp hClose
    obtain ⟨u, _, rfl, hu, hEnd⟩ := takes_blanks.mp hBlanks
    obtain ⟨rfl, rfl⟩ := takes_seqs_letters.mp hEnd
    refine ⟨w, v, t, u, ⟨hw, hv, hu⟩, (Form.block_eq word w v t u).symm, ?_⟩
    rw [List.append_nil]
    simpa only [Form.opening, List.append_assoc, List.cons_append, List.nil_append] using hInner
  · rintro ⟨w, v, t, u, ⟨hw, hv, hu⟩, rfl, hInner⟩
    rw [Form.block_eq]
    refine takes_letters.mpr ⟨_, rfl, takes_blanks.mpr ⟨w, _, rfl, hw, ?_⟩⟩
    refine takes_letters.mpr ⟨_, rfl, takes_blanks.mpr ⟨v, _, rfl, hv, ?_⟩⟩
    refine takes_letter.mpr ⟨_, rfl, ?_⟩
    refine takes_seqs_append.mpr ⟨t, _, ms, [], rfl, (List.append_nil ms).symm, ?_, ?_⟩
    · simpa only [Form.opening, List.append_assoc, List.cons_append, List.nil_append] using hInner
    · exact takes_letter.mpr
        ⟨_, rfl, takes_blanks.mpr ⟨u, _, rfl, hu, takes_seqs_letters.mpr ⟨rfl, rfl⟩⟩⟩

theorem takes_seqs_captured {i : Nat} {set : CharSet} :
    (seqs [captured i set]).Takes before s after ms ↔
      (s ≠ [] ∧ ∀ c ∈ s, set.contains c = true) ∧ ms = groupMarks i before s := by
  rw [takes_captured]
  constructor
  · rintro ⟨g, _, _, rfl, hg, rfl, hNil⟩
    obtain ⟨rfl, rfl⟩ := takes_seqs_nil.mp hNil
    rw [List.append_nil]
    exact ⟨hg, rfl⟩
  · rintro ⟨hs, rfl⟩
    exact ⟨s, [], [], (List.append_nil s).symm, hs, rfl, .empty⟩

/-- What the pattern of a loop has between its parentheses: two groups, with blanks around
both and a comma between them. -/
def loopInner (first second : CharSet) : List (Node Unit) :=
  [blanks, captured 1 first, blanks, letter ',', blanks, captured 2 second, blanks]

theorem takes_loopInner {first second : CharSet} :
    (seqs (loopInner first second)).Takes before s after ms ↔
      ∃ w g w' v h v', (AllBlank w ∧ AllBlank w' ∧ AllBlank v ∧ AllBlank v') ∧
        (g ≠ [] ∧ ∀ c ∈ g, first.contains c = true) ∧
        (h ≠ [] ∧ ∀ c ∈ h, second.contains c = true) ∧
        s = (w ++ g ++ w') ++ [','] ++ (v ++ h ++ v') ∧
        ms = groupMarks 1 (before ++ w) g ++
          groupMarks 2 (before ++ (w ++ g ++ w') ++ [','] ++ v) h := by
  constructor
  · intro hTakes
    obtain ⟨w, _, rfl, hw, hFirst⟩ := takes_blanks.mp hTakes
    obtain ⟨g, _, _, rfl, hg, rfl, hAfter⟩ := takes_captured.mp hFirst
    obtain ⟨w', _, rfl, hw', hComma⟩ := takes_blanks.mp hAfter
    obtain ⟨_, rfl, hBefore⟩ := takes_letter.mp hComma
    obtain ⟨v, _, rfl, hv, hSecond⟩ := takes_blanks.mp hBefore
    obtain ⟨h, _, _, rfl, hh, rfl, hLast⟩ := takes_captured.mp hSecond
    obtain ⟨v', _, rfl, hv', hNil⟩ := takes_blanks.mp hLast
    obtain ⟨rfl, rfl⟩ := takes_seqs_nil.mp hNil
    refine ⟨w, g, w', v, h, v', ⟨hw, hw', hv, hv'⟩, hg, hh, ?_, ?_⟩
    · simp only [List.append_assoc, List.cons_append, List.nil_append, List.append_nil]
    · simp only [groupMarks, List.append_assoc, List.cons_append, List.nil_append]
  · rintro ⟨w, g, w', v, h, v', ⟨hw, hw', hv, hv'⟩, hg, hh, rfl, rfl⟩
    have hText : (w ++ g ++ w') ++ [','] ++ (v ++ h ++ v') =
        w ++ (g ++ (w' ++ ',' :: (v ++ (h ++ (v' ++ []))))) := by
      simp only [List.append_assoc, List.cons_append, List.nil_append, List.append_nil]
    rw [hText]
    refine takes_blanks.mpr ⟨w, _, rfl, hw, ?_⟩
    refine takes_captured.mpr
      ⟨g, _, groupMarks 2 (before ++ (w ++ g ++ w') ++ [','] ++ v) h, rfl, hg, rfl, ?_⟩
    refine takes_blanks.mpr ⟨w', _, rfl, hw', takes_letter.mpr ⟨_, rfl, ?_⟩⟩
    refine takes_blanks.mpr ⟨v, _, rfl, hv, ?_⟩
    refine takes_captured.mpr ⟨h, _, [], rfl, hh, ?_, ?_⟩
    · simp only [groupMarks, List.append_assoc]
    · exact takes_blanks.mpr ⟨v', [], rfl, hv', .empty⟩

theorem exists_takes_loopInner {first second : CharSet} {g h : List Char}
    (hg : g ≠ [] ∧ ∀ c ∈ g, first.contains c = true)
    (hh : h ≠ [] ∧ ∀ c ∈ h, second.contains c = true) :
    ∃ ms, (seqs (loopInner first second)).Takes before (g ++ [','] ++ h) after ms := by
  have hNil : AllBlank [] := nofun
  refine ⟨_, takes_loopInner.mpr ⟨[], g, [], [], h, [], ⟨hNil, hNil, hNil, hNil⟩, hg, hh, ?_, rfl⟩⟩
  simp only [List.nil_append, List.append_nil]

theorem exists_takes_insertion (sign : Char) {path : List Char} (h : path ≠ []) :
    ∃ ms, (insertion sign).Takes before (Form.insertion sign path) after ms := by
  have hAny : ∀ c ∈ path, (CharSet.union .blank (.compl .blank)).contains c = true := by
    intro c _
    simp only [CharSet.contains, Bool.or_not_self]
  rw [Form.insertion_eq]
  exact ⟨_, takes_letters.mpr ⟨_, rfl, takes_captured.mpr
    ⟨path, _, [], rfl, ⟨h, hAny⟩, rfl, takes_seqs_letters.mpr ⟨rfl, rfl⟩⟩⟩⟩

theorem isPlain_letters (word : List Char) : (seqs (letters word)).IsPlain := by
  induction word with
  | nil => exact trivial
  | cons c word ih =>
    cases word with
    | nil => exact trivial
    | cons d word => exact ⟨trivial, ih⟩

/-! ## The shortest path -/

/-- A way through a word and on passes its characters. -/
theorem exists_of_passing_letters {word : List Char} {k : Sequel} {seen : List Nat} {f : Finish}
    (h : ((seqs (letters word ++ xs)).passing k before after seen).1 = some f) :
    ∃ rest seen', after = word ++ rest ∧
      ((seqs xs).passing k (before ++ word) rest seen').1 = some f := by
  induction word generalizing before after seen with
  | nil =>
    rw [List.append_nil]
    exact ⟨after, seen, rfl, h⟩
  | cons c word ih =>
    rw [letters, List.map_cons, List.cons_append, passing_seqs_cons, letter, passing,
      known_chars] at h
    cases after with
    | nil =>
      rw [enter_chars_nil] at h
      cases h
    | cons d rest =>
      rw [enter_chars_cons, CharSet.contains_single] at h
      split at h
      · rename_i hSame
        obtain rfl := beq_iff_eq.mp hSame
        obtain ⟨rest, seen', rfl, hMore⟩ := ih h
        rw [List.append_cons]
        exact ⟨rest, seen', rfl, hMore⟩
      · cases h

end

end Node

namespace Pattern

variable {before after : List Char}

theorem succeeds_passing_letters (word before after : List Char) :
    ((Node.seqs (Node.letters word)).passing finish before (word ++ after)).Succeeds :=
  Node.Takes.succeeds (Node.takes_seqs_letters.mpr ⟨rfl, rfl⟩) (Node.isPlain_letters word)
    (fun _ _ => rfl) fun _ _ => rfl

/-- **A directive that inserts a value goes to the first `%>`.** -/
theorem exists_endsFirst_of_matchAt {sign : Char} {names : List (Option String)} {m : Match}
    (h : matchAt ⟨.insertion sign, names⟩ before after = some m) :
    ∃ path rest, Form.EndsFirst path ∧ after = Form.insertion sign path ++ rest ∧
      m.stop = byteLength (before ++ Form.insertion sign path) ∧
      m.marks = groupMarks 1 (before ++ ['<', '%', sign]) path := by
  obtain ⟨f, hf, rfl⟩ := Option.map_eq_some_iff.mp h
  obtain ⟨inside, seen, rfl, hGroup⟩ := Node.exists_of_passing_letters hf
  rw [Node.passing_seqs_cons, Node.captured, Node.passing_group] at hGroup
  obtain ⟨f, hLazy, rfl⟩ := Option.map_eq_some_iff.mp hGroup
  obtain ⟨path, rest, hPath, rfl, -, hEnd, hFails⟩ := Node.exists_shortest_of_lazy hLazy
  obtain ⟨f, hLetters, rfl⟩ := Option.map_eq_some_iff.mp hEnd
  rw [← List.append_nil (Node.letters ['%', '>'])] at hLetters
  obtain ⟨rest, seen', rfl, hFinish⟩ := Node.exists_of_passing_letters hLetters
  rw [Node.seqs, Node.passing_empty] at hFinish
  obtain rfl := Option.some.inj hFinish
  have hText : Form.insertion sign path = ['<', '%', sign] ++ path ++ ['%', '>'] := rfl
  refine ⟨path, rest, ⟨hPath, fun a b ha hab => ?_⟩, ?_, ?_, rfl⟩
  · -- an earlier end would have been taken
    refine Decidable.byContradiction fun hb => ?_
    have hShort := Form.length_lt_of_append_eq hb hab
    have hInside : path ++ (['%', '>'] ++ rest) = a ++ (['%', '>'] ++ (b ++ rest)) := by
      rw [← List.append_assoc, hab]
      simp only [List.append_assoc]
    have hGoesOn := succeeds_passing_letters ['%', '>'] (before ++ ['<', '%', sign] ++ a)
      (b ++ rest)
    have hSome := hGoesOn.mark 1 true (byteLength (before ++ ['<', '%', sign] ++ a)) []
    have hNone := hFails a _ ha hInside hShort
    rw [Onward.best] at hNone
    rw [hNone] at hSome
    cases hSome
  · simp only [hText, List.append_assoc]
  · simp only [hText, List.append_assoc]
    rfl

/-! ## The patterns of the dialect -/

def standard : DirectiveKind → Pattern
  | .escape => ⟨.insertion '-', [none]⟩
  | .interpolate => ⟨.insertion '=', [none]⟩
  | .loop =>
    ⟨.block ['f', 'o', 'r'] (Node.loopInner (.compl (.union (.single ',') (.single ')')))
      (.compl (.single ')'))), [none, none]⟩
  | .conditional => ⟨.block ['i', 'f'] [.captured 1 (.compl (.single ')'))], [none]⟩
  | .alternative => ⟨.keyword ['e', 'l', 's', 'e'], [none]⟩
  | .terminate => ⟨.keyword ['e', 'n', 'd'], [none]⟩

/-- **The texts of the standard dialect are read as these patterns.** -/
theorem parse_standard (kind : DirectiveKind) :
    parse (Dialect.standard.pattern kind) = .ok (standard kind) := by
  have hRead : (parse (Dialect.standard.pattern kind)).toOption = some (standard kind) := by
    cases kind <;> decide +kernel
  exact Except.eq_ok_of_toOption hRead

theorem isPlain_standard (kind : DirectiveKind) : (standard kind).root.IsPlain := by
  cases kind <;> decide

end Pattern

end Stencil
