import Stencil.Proofs.Result
import Stencil.Proofs.Tokens

/-!
# The groups of a directive

The path of a directive, and the item name of a loop, are what groups of its pattern took of the
text.  A group that has the right name wins over its position; but the two names of a loop count
together only, and one of them alone leaves both groups to their positions.

* `Directive.ComesOf`: the pattern and the match that a directive of a text was made of
  (`RuleSet.exists_comesOf`).
* `Slots.FollowNames`: slots of a loop that are those of the names, where there are such names.
* `CompiledPattern.LoneNamesInPlace`: a name without the other stands at the position of its slot.
* `Slots.ofLoop_followNames_iff`: the slots of a loop follow the names just then.
* `RuleSet.groups_of_directive`: the groups of all directives of a text.
-/

namespace Stencil

open Text

/-! ## Rules of a dialect -/

section

variable [PatternCompiler]

theorem RuleSet.rule_of_make {dialect : Dialect} {rules : RuleSet} (h : make dialect = .ok rules)
    (kind : DirectiveKind) : Rule.make kind (dialect.pattern kind) = .ok (rules.rule kind) := by
  -- the rules are made one after another, so that all six were made
  rw [make] at h
  obtain ⟨escape, hEscape, h⟩ := Except.exists_of_mapError_bind h
  obtain ⟨interpolate, hInterpolate, h⟩ := Except.exists_of_mapError_bind h
  obtain ⟨loop, hLoop, h⟩ := Except.exists_of_mapError_bind h
  obtain ⟨conditional, hConditional, h⟩ := Except.exists_of_mapError_bind h
  obtain ⟨alternative, hAlternative, h⟩ := Except.exists_of_mapError_bind h
  obtain ⟨terminate, hTerminate, h⟩ := Except.exists_of_mapError_bind h
  cases h
  cases kind <;> assumption

theorem Rule.of_make {kind : DirectiveKind} {text : String} {r : Rule}
    (h : make kind text = .ok r) :
    ∃ p, PatternCompiler.compile text = .ok p ∧ r.search = p.search ∧
      Slots.of kind p = .ok r.slots := by
  rw [make] at h
  cases hCompile : PatternCompiler.compile text with
  | error message =>
    rw [hCompile] at h
    cases h
  | ok p =>
    rw [hCompile] at h
    obtain ⟨slots, hSlots, rfl⟩ := Except.exists_of_map h
    exact ⟨p, rfl, rfl, hSlots⟩

/-! ## Where a directive comes of -/

/-- Whether a directive of a text was made of a match of the pattern that a dialect has for its
kind. -/
structure Directive.ComesOf (d : Directive) (dialect : Dialect) (text : List Char)
    (p : CompiledPattern) (m : Match) : Prop where
  pattern : PatternCompiler.compile (dialect.pattern d.kind) = .ok p
  found : (p.search text).nonempty? d.start = some m
  stop : d.stop = m.stop

/-- **Every directive comes of its pattern**, and the slots of that pattern for its kind say which
groups its path and its item name are. -/
theorem RuleSet.exists_comesOf {dialect : Dialect} {rules : RuleSet} {text : String}
    {d : Directive} (hRules : make dialect = .ok rules) (hMem : .directive d ∈ rules.tokens text) :
    ∃ p m s, d.ComesOf dialect text.toList p m ∧ Slots.of d.kind p = .ok s ∧
      d.path = s.path.bind (m.textOf? text.toList) ∧
      d.itemName = s.itemName.bind (m.textOf? text.toList) := by
  have hAt := (rules.divides_tokens text).directiveAt?_of_mem hMem
  obtain ⟨f, hf, hFound⟩ := List.exists_of_findSome?_eq_some hAt
  obtain ⟨m, hm, hd⟩ := Option.map_eq_some_iff.mp hFound
  obtain ⟨kind, -, rfl⟩ := List.mem_map.mp hf
  obtain ⟨p, hCompile, hSearch, hSlots⟩ := Rule.of_make (rule_of_make hRules kind)
  have hKind : d.kind = kind := hd ▸ rfl
  subst hKind
  refine ⟨p, m, (rules.rule d.kind).slots, ⟨hCompile, ?_, ?_⟩, hSlots, ?_, ?_⟩
  · rw [← hSearch]
    exact hm
  · exact hd ▸ rfl
  · exact hd ▸ Finder.path_directive _ m
  · exact hd ▸ Finder.itemName_directive _ m

end

/-! ## Named groups -/

namespace CompiledPattern

variable {p : CompiledPattern}

theorem name_eq_of_groupNamed? {name other : String} {i : Nat}
    (h : p.groupNamed? name = some i) (hOther : p.groupNamed? other = some i) : name = other := by
  obtain ⟨k, hk, rfl⟩ := Option.map_eq_some_iff.mp h
  obtain ⟨l, hl, hSame⟩ := Option.map_eq_some_iff.mp hOther
  obtain rfl := Nat.add_right_cancel hSame
  obtain ⟨hLength, hName, -⟩ := List.findIdx?_eq_some_iff_getElem.mp hk
  obtain ⟨hLength', hName', -⟩ := List.findIdx?_eq_some_iff_getElem.mp hl
  exact Option.some.inj ((eq_of_beq hName).symm.trans (eq_of_beq hName'))

/-- Whether a group that has one of the two names of a loop, while none has the other, stands
where its slot is by position. -/
structure LoneNamesInPlace (p : CompiledPattern) : Prop where
  collection : ∀ i, p.groupNamed? "collection" = some i → p.groupNamed? "alias" = none → i = 1
  itemName : ∀ i, p.groupNamed? "alias" = some i → p.groupNamed? "collection" = none → i = 2

end CompiledPattern

namespace Slots

variable {p : CompiledPattern} {s : Slots}

/-- Whether the slots of a loop are the groups that have their names, where there are such, and
neither of them is the group that has the other's name. -/
structure FollowNames (s : Slots) (p : CompiledPattern) : Prop where
  path : ∀ i, p.groupNamed? "collection" = some i → s.path = some i ∧ s.itemName ≠ some i
  itemName : ∀ i, p.groupNamed? "alias" = some i → s.itemName = some i ∧ s.path ≠ some i

theorem ofLoop_eq_ok (h : ofLoop p = .ok s) :
    (∃ i j, p.groupNamed? "collection" = some i ∧ p.groupNamed? "alias" = some j ∧
      s = ⟨some i, some j⟩) ∨
    ((p.groupNamed? "collection" = none ∨ p.groupNamed? "alias" = none) ∧ 2 ≤ p.groupCount ∧
      s = ⟨some 1, some 2⟩) := by
  rw [ofLoop] at h
  split at h
  · rename_i i j hCollection hAlias
    cases h
    exact .inl ⟨i, j, hCollection, hAlias, rfl⟩
  · rename_i hNotBoth
    split at h
    · rename_i hCount
      cases h
      refine .inr ⟨?_, hCount, rfl⟩
      cases hCollection : p.groupNamed? "collection" with
      | none => exact .inl rfl
      | some i =>
        cases hAlias : p.groupNamed? "alias" with
        | none => exact .inr rfl
        | some j => exact absurd hAlias (hNotBoth i j hCollection)
    · cases h

/-- **The slots of a loop follow the names** just when a lone name stands in its place. -/
theorem ofLoop_followNames_iff (h : ofLoop p = .ok s) : s.FollowNames p ↔ p.LoneNamesInPlace := by
  rcases ofLoop_eq_ok h with ⟨i, j, hCollection, hAlias, rfl⟩ | ⟨hLone, -, rfl⟩
  · -- with both names there is nothing to ask of a lone one
    have hDiffer : i ≠ j := fun hSame => absurd
      (CompiledPattern.name_eq_of_groupNamed? hCollection (hSame ▸ hAlias)) (by decide)
    constructor
    · exact fun _ => ⟨fun _ _ hNone => absurd (hAlias.symm.trans hNone) nofun,
        fun _ _ hNone => absurd (hCollection.symm.trans hNone) nofun⟩
    · intro _
      refine ⟨fun k hk => ?_, fun k hk => ?_⟩
      · obtain rfl := Option.some.inj (hCollection.symm.trans hk)
        exact ⟨rfl, fun hSame => hDiffer (Option.some.inj hSame).symm⟩
      · obtain rfl := Option.some.inj (hAlias.symm.trans hk)
        exact ⟨rfl, fun hSame => hDiffer (Option.some.inj hSame)⟩
  · constructor
    · exact fun hFollow => ⟨fun i hi _ => (Option.some.inj (hFollow.path i hi).1).symm,
        fun i hi _ => (Option.some.inj (hFollow.itemName i hi).1).symm⟩
    · intro hInPlace
      refine ⟨fun i hi => ?_, fun i hi => ?_⟩
      · have hNone : p.groupNamed? "alias" = none :=
          hLone.resolve_left fun hNone => absurd (hi.symm.trans hNone) nofun
        obtain rfl := hInPlace.collection i hi hNone
        exact ⟨rfl, nofun⟩
      · have hNone : p.groupNamed? "collection" = none :=
          hLone.resolve_right fun hNone => absurd (hi.symm.trans hNone) nofun
        obtain rfl := hInPlace.itemName i hi hNone
        exact ⟨rfl, nofun⟩

theorem ofPath_eq_ok (h : ofPath p = .ok s) :
    s = ⟨some ((p.groupNamed? "path").getD 1), none⟩ ∧
      (p.groupNamed? "path" = none → 1 ≤ p.groupCount) := by
  rw [ofPath] at h
  split at h
  · rename_i i hPath
    cases h
    rw [hPath]
    exact ⟨rfl, nofun⟩
  · rename_i hPath
    split at h
    · rename_i hCount
      cases h
      rw [hPath]
      exact ⟨rfl, fun _ => hCount⟩
    · cases h

end Slots

/-! ## All directives of a text -/

/-- **Named groups win over positions, but of the two names of a loop one alone does not**: in
every directive of a text the path of an insertion or a conditional is what the group `path` took,
wherever that stands, else what the first group took.  The path and the item name of a loop are
what the groups `collection` and `alias` took when both are there, else what the first two groups
took; so they follow the names just when a lone name stands in its place.  This holds whatever
compiles the patterns. -/
theorem RuleSet.groups_of_directive [PatternCompiler] (dialect : Dialect) (rules : RuleSet)
    (text : String) (d : Directive) (hRules : make dialect = .ok rules)
    (hMem : .directive d ∈ rules.tokens text) :
    ∃ (p : CompiledPattern) (m : Match) (s : Slots), d.ComesOf dialect text.toList p m ∧
      d.path = s.path.bind (m.textOf? text.toList) ∧
      d.itemName = s.itemName.bind (m.textOf? text.toList) ∧
      (d.kind ∈ [.escape, .interpolate, .conditional] →
        s = ⟨some ((p.groupNamed? "path").getD 1), none⟩ ∧
          (p.groupNamed? "path" = none → 1 ≤ p.groupCount)) ∧
      (d.kind = .loop → (s.FollowNames p ↔ p.LoneNamesInPlace) ∧
        (p.groupNamed? "collection" = none ∨ p.groupNamed? "alias" = none →
          2 ≤ p.groupCount ∧ s = ⟨some 1, some 2⟩)) := by
  obtain ⟨p, m, s, hComes, hSlots, hPath, hItem⟩ := exists_comesOf hRules hMem
  refine ⟨p, m, s, hComes, hPath, hItem, fun hKind => ?_, fun hKind => ?_⟩
  · have hOfPath : Slots.ofPath p = .ok s := by
      simp only [List.mem_cons, List.not_mem_nil, or_false] at hKind
      rcases hKind with h | h | h <;>
        · rw [h] at hSlots
          exact hSlots
    exact Slots.ofPath_eq_ok hOfPath
  · rw [hKind] at hSlots
    have hOfLoop : Slots.ofLoop p = .ok s := hSlots
    refine ⟨Slots.ofLoop_followNames_iff hOfLoop, fun hLone => ?_⟩
    rcases Slots.ofLoop_eq_ok hOfLoop with ⟨i, j, hCollection, hAlias, -⟩ | ⟨-, hFirst⟩
    · rw [hCollection, hAlias] at hLone
      exact absurd hLone nofun
    · exact hFirst

/-- A loop whose item is named before its collection, after a path whose name comes second. -/
theorem RuleSet.groups_of_directive_reordered :
    let dialect : Dialect := { interpolate := "\\$<(raw:)?(?P<path>[^>]+)>"
                               loop := "\\[each (?P<alias>[a-z]+) in (?P<collection>[a-z]+)\\]" }
    let text := "$<raw:a.b>[each item in list]"
    let d : Directive := ⟨.loop, some "list", some "item", "[each item in list]", 10, 29⟩
    ∃ rules, make dialect = .ok rules ∧
      rules.tokens text =
        [.directive ⟨.interpolate, some "a.b", none, "$<raw:a.b>", 0, 10⟩, .directive d] ∧
      ∃ (p : CompiledPattern) (m : Match) (s : Slots), d.ComesOf dialect text.toList p m ∧
        d.path = s.path.bind (m.textOf? text.toList) ∧
        d.itemName = s.itemName.bind (m.textOf? text.toList) ∧
        (d.kind ∈ [.escape, .interpolate, .conditional] →
          s = ⟨some ((p.groupNamed? "path").getD 1), none⟩ ∧
            (p.groupNamed? "path" = none → 1 ≤ p.groupCount)) ∧
        (d.kind = .loop → (s.FollowNames p ↔ p.LoneNamesInPlace) ∧
          (p.groupNamed? "collection" = none ∨ p.groupNamed? "alias" = none →
            2 ≤ p.groupCount ∧ s = ⟨some 1, some 2⟩)) := by
  intro dialect text d
  have hTokens : ∀ rules ∈ (make dialect).toOption, rules.tokens text =
      [.directive ⟨.interpolate, some "a.b", none, "$<raw:a.b>", 0, 10⟩, .directive d] := by
    decide +kernel
  obtain ⟨rules, hMake, hAll⟩ := Except.exists_eq_ok (by decide +kernel) hTokens
  have hMem : .directive d ∈ rules.tokens text := by
    rw [hAll]
    exact List.mem_cons_of_mem _ List.mem_cons_self
  exact ⟨rules, hMake, hAll, groups_of_directive dialect rules text d hMake hMem⟩

/-- A name alone does not win: the group `alias`, the first of two, is taken for the path of the
collection. -/
theorem RuleSet.not_followNames_of_lone_alias :
    let dialect : Dialect := { loop := "\\[each (?P<alias>[a-z]+) in ([a-z]+)\\]" }
    let text := "[each item in list]"
    let d : Directive := ⟨.loop, some "item", some "list", text, 0, 19⟩
    ∃ (rules : RuleSet) (p : CompiledPattern) (m : Match), make dialect = .ok rules ∧
      rules.tokens text = [.directive d] ∧ d.ComesOf dialect text.toList p m ∧
      p.groupNamed? "alias" = some 1 ∧ m.textOf? text.toList 1 = some "item" ∧
      ¬∃ s : Slots, s.FollowNames p ∧ d.path = s.path.bind (m.textOf? text.toList) ∧
        d.itemName = s.itemName.bind (m.textOf? text.toList) := by
  intro dialect text d
  have hTokens : ∀ rules ∈ (make dialect).toOption, rules.tokens text = [.directive d] := by
    decide +kernel
  have hPattern : ∀ p ∈ (PatternCompiler.compile dialect.loop).toOption,
      p.groupNamed? "alias" = some 1 ∧
        ((p.search text.toList).nonempty? 0).bind (·.textOf? text.toList 1) = some "item" := by
    decide +kernel
  obtain ⟨rules, hMake, hAll⟩ := Except.exists_eq_ok (by decide +kernel) hTokens
  obtain ⟨p, m, -, hComes, -, -, -⟩ :=
    exists_comesOf (d := d) hMake (hAll ▸ List.mem_singleton_self _)
  have hCompile : PatternCompiler.compile dialect.loop = .ok p := hComes.pattern
  have hFound : (p.search text.toList).nonempty? 0 = some m := hComes.found
  obtain ⟨hAlias, hText⟩ := hPattern p (by rw [hCompile]; rfl)
  rw [hFound] at hText
  refine ⟨rules, p, m, hMake, hAll, hComes, hAlias, hText, ?_⟩
  rintro ⟨s, hFollow, -, hItem⟩
  -- by its name the group would be that of the item name
  rw [(hFollow.itemName 1 hAlias).1] at hItem
  exact absurd (hItem.trans hText) (by decide)

end Stencil
