import Stencil.Template.Compile
import Stencil.Proofs.Tokens
import Stencil.Proofs.Standard.Pattern

/-!
# Directives in the standard dialect

In the standard dialect a rule finds a directive where a form of its kind stands, and it finds
what the form tells.

* `RuleSet.standard`: the rules of the standard dialect (`RuleSet.make_standard`).
* `Form.exists_takes`: the pattern of a kind takes the forms of that kind.
* `Form.exists_of_matchAt`: what the pattern of a kind matches is a form of that kind.
* `RuleSet.exists_form_of_directiveAt?`, `RuleSet.exists_directiveAt?_of_standsAt`: the same for
  what a rule finds at a place of a text.
* `RuleSet.reading_tokens`: the tokens of a text are those that the forms in it tell.
* `RuleSet.standard_finds_forms`: the dialect and its forms.
-/

namespace Stencil

open Text

def Slots.standard : DirectiveKind → Slots
  | .escape => ⟨some 1, none⟩
  | .interpolate => ⟨some 1, none⟩
  | .loop => ⟨some 1, some 2⟩
  | .conditional => ⟨some 1, none⟩
  | .alternative => ⟨none, none⟩
  | .terminate => ⟨none, none⟩

def Rule.standard (kind : DirectiveKind) : Rule := ⟨(Pattern.standard kind).search, .standard kind⟩

theorem Rule.make_standard (kind : DirectiveKind) :
    Rule.make kind (Dialect.standard.pattern kind) = .ok (.standard kind) := by
  rw [Rule.make, Pattern.compile_of_parse (Pattern.parse_standard kind)]
  cases kind <;> rfl

namespace RuleSet

def standard : RuleSet :=
  { escape := .standard .escape, interpolate := .standard .interpolate, loop := .standard .loop,
    conditional := .standard .conditional, alternative := .standard .alternative,
    terminate := .standard .terminate }

theorem make_standard : make .standard = .ok standard := by
  simp only [make, Rule.make_standard]
  rfl

theorem compile_standard (source : String) :
    Template.compile .standard source =
      (Template.compileWith standard source).mapError .structural := by
  rw [Template.compile, make_standard]

theorem rule_standard (kind : DirectiveKind) : standard.rule kind = .standard kind := by
  cases kind <;> rfl

def finder (rules : RuleSet) (text : List Char) (kind : DirectiveKind) : Finder text :=
  ⟨kind, (rules.rule kind).search text, (rules.rule kind).slots⟩

end RuleSet

/-! ## The text of a group -/

theorem Match.textOf?_eq_some {m : Match} {text a g c : List Char} {i : Nat}
    (hGroup : m.group? i = some (byteLength a, byteLength (a ++ g)))
    (hText : text = a ++ g ++ c) : m.textOf? text i = some (String.ofList g) := by
  rw [textOf?, hGroup, hText, byteLength_append]
  show some (String.ofList (slice (byteLength a) (byteLength a + byteLength g) (a ++ g ++ c))) = _
  rw [slice_append]

namespace RuleSet

theorem path_directive_standard (text : List Char) (kind : DirectiveKind) (m : Match) :
    ((standard.finder text kind).directive m).path =
      (Slots.standard kind).path.bind (m.textOf? text) := by
  cases kind <;> rfl

theorem itemName_directive_standard (text : List Char) (kind : DirectiveKind) (m : Match) :
    ((standard.finder text kind).directive m).itemName =
      (Slots.standard kind).itemName.bind (m.textOf? text) := by
  cases kind <;> rfl

end RuleSet

/-! ## Forms are found -/

namespace Form

variable {f : Form} {before after : List Char}

/-- A match that takes the text of a form tells the form, when its groups hold what the form
does. -/
theorem Tells.of_match {text : List Char} {m : Match}
    (hText : text = before ++ f.raw ++ after) (hStart : m.start = byteLength before)
    (hStop : m.stop = byteLength (before ++ f.raw))
    (hPath : f.kind ≠ .loop → (Slots.standard f.kind).path.bind (m.textOf? text) = f.path?)
    (hTrimmed : ((Slots.standard f.kind).path.bind (m.textOf? text)).map trimmed =
      f.path?.map trimmed)
    (hItem : ((Slots.standard f.kind).itemName.bind (m.textOf? text)).map trimmed =
      f.itemName?.map trimmed) :
    f.Tells (byteLength before) ((RuleSet.standard.finder text f.kind).directive m) := by
  rw [byteLength_append] at hStop
  constructor
  · rfl
  · show String.ofList (slice m.start m.stop text) = _
    rw [hStart, hStop, hText, slice_append]
  · exact hStart
  · exact hStop
  · rwa [RuleSet.path_directive_standard]
  · rwa [RuleSet.path_directive_standard]
  · rwa [RuleSet.itemName_directive_standard]

theorem Tells.of_exact {text : List Char} {m : Match}
    (hText : text = before ++ f.raw ++ after) (hStart : m.start = byteLength before)
    (hStop : m.stop = byteLength (before ++ f.raw))
    (hPath : (Slots.standard f.kind).path.bind (m.textOf? text) = f.path?)
    (hSlot : (Slots.standard f.kind).itemName = none) (hItem : f.itemName? = none) :
    f.Tells (byteLength before) ((RuleSet.standard.finder text f.kind).directive m) := by
  refine .of_match hText hStart hStop (fun _ => hPath) (congrArg _ hPath) ?_
  rw [hSlot, hItem]
  rfl

/-- **The pattern of a kind takes the forms of that kind.** -/
theorem exists_takes (hf : f.Valid) :
    ∃ ms, (Pattern.standard f.kind).root.Takes before f.raw after ms := by
  cases f with
  | escape path => exact Node.exists_takes_insertion '-' hf.1
  | interpolate path => exact Node.exists_takes_insertion '=' hf.1
  | alternative w u => exact Node.takes_keyword.mpr ⟨w, u, hf.1, hf.2, rfl⟩
  | terminate w u => exact Node.takes_keyword.mpr ⟨w, u, hf.1, hf.2, rfl⟩
  | conditional w v condition u =>
    obtain ⟨hBlank, hSome, hParen⟩ := hf
    have hSet := CharSet.forall_contains_compl_single.mpr hParen
    exact ⟨_, Node.takes_block.mpr ⟨w, v, condition, u, hBlank, rfl,
      Node.takes_seqs_captured.mpr ⟨⟨hSome, hSet⟩, rfl⟩⟩⟩
  | loop w v collection itemName u =>
    obtain ⟨hBlank, ⟨hSome, hNone⟩, hItem, hParen⟩ := hf
    have hFirst := CharSet.forall_contains_compl_union.mpr hNone
    have hSecond := CharSet.forall_contains_compl_single.mpr hParen
    obtain ⟨ms, hInner⟩ := Node.exists_takes_loopInner ⟨hSome, hFirst⟩ ⟨hItem, hSecond⟩
    exact ⟨ms, Node.takes_block.mpr ⟨w, v, _, u, hBlank, rfl, hInner⟩⟩

/-! ## What is found is a form -/

theorem tells_of_insertion {sign : Char} {m : Match} {text : List Char}
    (hText : text = before ++ after)
    (h : Pattern.matchAt ⟨.insertion sign, [none]⟩ before after = some m) :
    ∃ path rest, EndsFirst path ∧ after = insertion sign path ++ rest ∧
      m.start = byteLength before ∧ m.stop = byteLength (before ++ insertion sign path) ∧
      m.textOf? text 1 = some (String.ofList path) := by
  obtain ⟨path, rest, hPath, rfl, hStop, hMarks⟩ := Pattern.exists_endsFirst_of_matchAt h
  refine ⟨path, rest, hPath, rfl, Pattern.matchAt_start h, hStop, ?_⟩
  refine Match.textOf?_eq_some (a := before ++ ['<', '%', sign]) (c := ['%', '>'] ++ rest) ?_ ?_
  · rw [Match.group?, hMarks]
    rfl
  · simp only [hText, insertion, List.append_assoc]

theorem tells_of_conditional {m : Match} {text : List Char} (hText : text = before ++ after)
    (h : (Pattern.standard .conditional).matchAt before after = some m) :
    ∃ w v condition u rest, Valid (conditional w v condition u) ∧
      after = (conditional w v condition u).raw ++ rest ∧
      (conditional w v condition u).Tells (byteLength before)
        ((RuleSet.standard.finder text .conditional).directive m) := by
  obtain ⟨s, rest, rfl, hTakes, hStart, hStop⟩ := Pattern.takes_of_matchAt h
  obtain ⟨w, v, condition, u, hBlank, rfl, hInner⟩ := Node.takes_block.mp hTakes
  obtain ⟨⟨hSome, hSet⟩, hMarks⟩ := Node.takes_seqs_captured.mp hInner
  have hParen := CharSet.forall_contains_compl_single.mp hSet
  have hGroup : m.textOf? text 1 = some (String.ofList condition) := by
    refine Match.textOf?_eq_some (a := before ++ opening ['i', 'f'] w v)
      (c := [')'] ++ u ++ ['%', '>'] ++ rest) ?_ ?_
    · rw [Match.group?, hMarks]
      rfl
    · simp only [hText, block, List.append_assoc]
  rw [← List.append_assoc] at hText
  exact ⟨w, v, condition, u, rest, ⟨hBlank, hSome, hParen⟩, rfl,
    .of_exact hText hStart hStop hGroup rfl rfl⟩

theorem notMem_append_append {c : Char} {w g v : List Char} (hw : AllBlank w) (hv : AllBlank v)
    (hc : isBlank c = false) (hg : c ∉ g) : c ∉ w ++ g ++ v := by
  simp only [List.mem_append, hw.notMem hc, hv.notMem hc, hg, or_self, not_false_eq_true]

/-- The match of a loop tells it: blanks go before and after the groups. -/
theorem tells_of_loop {m : Match} {text : List Char} (hText : text = before ++ after)
    (h : (Pattern.standard .loop).matchAt before after = some m) :
    ∃ w v collection itemName u rest, Valid (loop w v collection itemName u) ∧
      after = (loop w v collection itemName u).raw ++ rest ∧
      (loop w v collection itemName u).Tells (byteLength before)
        ((RuleSet.standard.finder text .loop).directive m) := by
  obtain ⟨_, rest, rfl, hTakes, hStart, hStop⟩ := Pattern.takes_of_matchAt h
  obtain ⟨w, v, _, u, hBlank, rfl, hInner⟩ := Node.takes_block.mp hTakes
  obtain ⟨w₁, g, v₁, w₂, k, v₂, ⟨hw₁, hv₁, hw₂, hv₂⟩, ⟨hg, hFirst⟩, ⟨hk, hSecond⟩, rfl, hMarks⟩ :=
    Node.takes_loopInner.mp hInner
  obtain ⟨hComma, hParen⟩ := CharSet.forall_contains_compl_union.mp hFirst
  have hParen' := CharSet.forall_contains_compl_single.mp hSecond
  have hCollection : m.textOf? text 1 = some (String.ofList g) := by
    refine Match.textOf?_eq_some (a := before ++ opening ['f', 'o', 'r'] w v ++ w₁)
      (c := v₁ ++ [','] ++ (w₂ ++ k ++ v₂) ++ [')'] ++ u ++ ['%', '>'] ++ rest) ?_ ?_
    · rw [Match.group?, hMarks]
      rfl
    · simp only [hText, block, List.append_assoc]
  have hItemName : m.textOf? text 2 = some (String.ofList k) := by
    refine Match.textOf?_eq_some
      (a := before ++ opening ['f', 'o', 'r'] w v ++ (w₁ ++ g ++ v₁) ++ [','] ++ w₂)
      (c := v₂ ++ [')'] ++ u ++ ['%', '>'] ++ rest) ?_ ?_
    · rw [Match.group?, hMarks]
      rfl
    · simp only [hText, block, List.append_assoc]
  rw [← List.append_assoc] at hText
  refine ⟨w, v, w₁ ++ g ++ v₁, w₂ ++ k ++ v₂, u, rest, ⟨hBlank, ⟨?_, ?_, ?_⟩, ?_, ?_⟩, rfl,
    .of_match hText hStart hStop (fun hKind => absurd rfl hKind) ?_ ?_⟩
  · simp only [ne_eq, List.append_eq_nil_iff, hg, and_false, false_and, not_false_eq_true]
  · exact notMem_append_append hw₁ hv₁ rfl hComma
  · exact notMem_append_append hw₁ hv₁ rfl hParen
  · simp only [ne_eq, List.append_eq_nil_iff, hk, and_false, false_and, not_false_eq_true]
  · exact notMem_append_append hw₂ hv₂ rfl hParen'
  · show (m.textOf? text 1).map trimmed = some (trimmed _)
    rw [hCollection, trimmed_append_append hw₁ hv₁]
    rfl
  · show (m.textOf? text 2).map trimmed = some (trimmed _)
    rw [hItemName, trimmed_append_append hw₂ hv₂]
    rfl

/-- **What a rule finds at a place is a form of its kind, and tells it.** -/
theorem exists_of_matchAt {kind : DirectiveKind} {m : Match} {text : List Char}
    (hText : text = before ++ after)
    (h : (Pattern.standard kind).matchAt before after = some m) :
    ∃ f rest, Valid f ∧ f.kind = kind ∧ after = f.raw ++ rest ∧
      f.Tells (byteLength before) ((RuleSet.standard.finder text kind).directive m) := by
  cases kind with
  | escape =>
    obtain ⟨path, rest, hPath, rfl, hStart, hStop, hGroup⟩ := tells_of_insertion hText h
    rw [← List.append_assoc] at hText
    exact ⟨.escape path, rest, hPath, rfl, rfl, .of_exact hText hStart hStop hGroup rfl rfl⟩
  | interpolate =>
    obtain ⟨path, rest, hPath, rfl, hStart, hStop, hGroup⟩ := tells_of_insertion hText h
    rw [← List.append_assoc] at hText
    exact ⟨.interpolate path, rest, hPath, rfl, rfl, .of_exact hText hStart hStop hGroup rfl rfl⟩
  | loop =>
    obtain ⟨w, v, collection, itemName, u, rest, hValid, hRaw, hTells⟩ := tells_of_loop hText h
    exact ⟨.loop w v collection itemName u, rest, hValid, rfl, hRaw, hTells⟩
  | conditional =>
    obtain ⟨w, v, condition, u, rest, hValid, hRaw, hTells⟩ := tells_of_conditional hText h
    exact ⟨.conditional w v condition u, rest, hValid, rfl, hRaw, hTells⟩
  | alternative =>
    obtain ⟨s, rest, rfl, hTakes, hStart, hStop⟩ := Pattern.takes_of_matchAt h
    obtain ⟨w, u, hw, hu, rfl⟩ := Node.takes_keyword.mp ⟨_, hTakes⟩
    rw [← List.append_assoc] at hText
    exact ⟨.alternative w u, rest, ⟨hw, hu⟩, rfl, rfl, .of_exact hText hStart hStop rfl rfl rfl⟩
  | terminate =>
    obtain ⟨s, rest, rfl, hTakes, hStart, hStop⟩ := Pattern.takes_of_matchAt h
    obtain ⟨w, u, hw, hu, rfl⟩ := Node.takes_keyword.mp ⟨_, hTakes⟩
    rw [← List.append_assoc] at hText
    exact ⟨.terminate w u, rest, ⟨hw, hu⟩, rfl, rfl, .of_exact hText hStart hStop rfl rfl rfl⟩

end Form

/-! ## Rules and forms -/

namespace RuleSet

variable {text : List Char} {offset : Nat} {kind : DirectiveKind} {d : Directive} {f : Form}

theorem at?_finder_standard (kind : DirectiveKind) (before after : List Char) :
    (standard.finder (before ++ after) kind).search.at? (byteLength before) =
      (Pattern.standard kind).matchAt before after := by
  rw [finder, rule_standard]
  exact (Pattern.standard kind).at?_search before after

/-- **Where a rule finds a directive a form of its kind stands**, and the directive is what
the form tells. -/
theorem exists_form_of_directiveAt?
    (h : (standard.finder text kind).directiveAt? offset = some d) :
    ∃ f : Form, f.kind = kind ∧ f.StandsAt text offset ∧ f.Tells offset d := by
  obtain ⟨m, hFound, rfl⟩ := Option.map_eq_some_iff.mp h
  obtain ⟨hAt, -⟩ := Search.nonempty?_eq_some.mp hFound
  have hBoundary := (Search.at?_liesIn _ hAt).1
  rw [Search.at?_start _ hAt] at hBoundary
  obtain ⟨before, after, rfl, rfl⟩ := hBoundary
  rw [at?_finder_standard] at hAt
  obtain ⟨f, rest, hValid, hKind, rfl, hTells⟩ := Form.exists_of_matchAt rfl hAt
  exact ⟨f, hKind, ⟨hValid, before, rest, (List.append_assoc ..).symm, rfl⟩, hTells⟩

/-- **Where a form stands the rule of its kind finds it.** -/
theorem exists_directiveAt?_of_standsAt (h : f.StandsAt text offset) :
    ∃ d, (standard.finder text f.kind).directiveAt? offset = some d ∧ f.Tells offset d := by
  obtain ⟨hValid, before, after, rfl, rfl⟩ := h
  obtain ⟨ms, hTakes⟩ := f.exists_takes hValid
  obtain ⟨m, hMatch⟩ := Pattern.exists_matchAt (Pattern.isPlain_standard f.kind) hTakes
  rw [List.append_assoc]
  obtain ⟨g, rest, hOther, -, hRaw, hTells⟩ := Form.exists_of_matchAt rfl hMatch
  obtain rfl := Form.eq_of_raw_append hValid hOther hRaw
  have hAt := (at?_finder_standard f.kind before (f.raw ++ after)).trans hMatch
  have hFull : m.isEmpty = false := by
    have hStart : m.start = byteLength before := hTells.start
    have hStop : m.stop = byteLength before + byteLength f.raw := hTells.stop
    have := byteLength_pos f.raw_ne_nil
    simp only [Match.isEmpty, beq_eq_false_iff_ne]
    omega
  have hFound := Search.nonempty?_eq_some.mpr ⟨hAt, hFull⟩
  exact ⟨_, congrArg (Option.map _) hFound, hTells⟩

theorem finders_eq_map (rules : RuleSet) (text : List Char) :
    rules.finders text = DirectiveKind.all.map (rules.finder text) := rfl

theorem exists_form_of_directiveAt?_standard (h : standard.directiveAt? text offset = some d) :
    ∃ f : Form, f.StandsAt text offset ∧ f.Tells offset d := by
  obtain ⟨finder, hMem, hFound⟩ := List.exists_of_findSome?_eq_some h
  rw [finders_eq_map] at hMem
  obtain ⟨kind, -, rfl⟩ := List.mem_map.mp hMem
  obtain ⟨f, -, hForm⟩ := exists_form_of_directiveAt? hFound
  exact ⟨f, hForm⟩

theorem directiveAt?_standard_eq_none (h : standard.directiveAt? text offset = none) (f : Form) :
    ¬f.StandsAt text offset := by
  intro hStands
  obtain ⟨d, hFound, -⟩ := exists_directiveAt?_of_standsAt hStands
  have hMem : standard.finder text f.kind ∈ standard.finders text := by
    rw [finders_eq_map]
    refine List.mem_map_of_mem ?_
    cases f.kind <;> decide
  have hNone := List.findSome?_eq_none_iff.mp h _ hMem
  rw [hNone] at hFound
  cases hFound

/-- **The tokens that the rules tell are those that the forms tell.** -/
theorem Divides.reading {i : Nat} {ts : List Token} (h : standard.Divides text i ts)
    (hi : IsBoundary text i) : Form.Reading text i ts := by
  induction h with
  | stop => exact .stop
  | rest hlt hFirst =>
    rw [← hi.slice_byteLength]
    exact .literal hlt (fun k hk _ => directiveAt?_standard_eq_none (hFirst k hk)) (.inl rfl) .stop
  | directive hAt _ ih =>
    obtain ⟨f, hStands, hTells⟩ := exists_form_of_directiveAt?_standard hAt
    exact .directive hStands hTells (ih (directiveAt?_eq_some hAt).2.2.2.1)
  | @literal i d ts hlt hFirst _ ih =>
    have hStart := isBoundary_of_first hFirst
    obtain ⟨f, hStands, -⟩ := exists_form_of_directiveAt?_standard (directiveAt?_of_first hFirst).2
    obtain ⟨j, hj, hAt, hUntil⟩ := hFirst
    obtain rfl := (directiveAt?_eq_some hAt).1
    exact .literal hlt (fun k hk hkj => directiveAt?_standard_eq_none (hUntil k hk hkj))
      (.inr ⟨f, hStands⟩) (ih hStart)

theorem reading_tokens (text : String) : Form.Reading text.toList 0 (standard.tokens text) :=
  (standard.divides_tokens text).reading (isBoundary_zero _)

/-- **The standard dialect is the grammar of its forms**: its rules find the forms that stand
at a place and nothing else, each rule those of its kind and no two rules at one place; what
they find is what the forms tell; a form that inserts a value stands wherever `%>` follows some
text; and the tokens of a text are the forms in it, from left to right, with the text between
them. -/
theorem standard_finds_forms :
    make .standard = .ok standard ∧
      (∀ (text : List Char) (offset : Nat),
        (∀ f : Form, f.StandsAt text offset →
          ∃ d, (standard.finder text f.kind).directiveAt? offset = some d ∧ f.Tells offset d) ∧
        (∀ kind d, (standard.finder text kind).directiveAt? offset = some d →
          ∃ f : Form, f.kind = kind ∧ f.StandsAt text offset ∧ f.Tells offset d) ∧
        ∀ kind other, ((standard.finder text kind).directiveAt? offset).isSome →
          ((standard.finder text other).directiveAt? offset).isSome → kind = other) ∧
      (∀ before path after : List Char, path ≠ [] →
        (∃ first, (Form.escape first).StandsAt (before ++ Form.insertion '-' path ++ after)
          (byteLength before)) ∧
        ∃ first, (Form.interpolate first).StandsAt (before ++ Form.insertion '=' path ++ after)
          (byteLength before)) ∧
      ∀ text : String, Form.Reading text.toList 0 (standard.tokens text) := by
  refine ⟨make_standard, fun text offset => ⟨fun f hf => exists_directiveAt?_of_standsAt hf,
    fun kind d hd => exists_form_of_directiveAt? hd, fun kind other h h' => ?_⟩,
    fun before _ after h => Form.exists_insertion_standsAt before h after, reading_tokens⟩
  obtain ⟨d, hd⟩ := Option.isSome_iff_exists.mp h
  obtain ⟨e, he⟩ := Option.isSome_iff_exists.mp h'
  obtain ⟨f, hKind, hf, -⟩ := exists_form_of_directiveAt? hd
  obtain ⟨g, hOther, hg, -⟩ := exists_form_of_directiveAt? he
  rw [← hKind, ← hOther, hf.eq hg]

end RuleSet

end Stencil
