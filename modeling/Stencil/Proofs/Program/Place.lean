import Stencil.Program
import Stencil.Proofs.Text.Position
import Stencil.Proofs.Standard.Directives
import Stencil.Proofs.Template.Fault

/-!
# Where a fault is shown

A fault of a template is shown with a line and a column.  They lead back to the directive at
fault: the first place of one of the directives of the text, of the kind that the fault names.

* `TemplateFault.kind`: the kind of directive that a fault names.
* `Template.exists_directive_of_error`: the directive at fault.
* `Token.LiesIn.dropBytes_start`: the text of a token begins where it starts.
* `Template.positions_lead_back`: positions and offsets, and the place that is shown of a fault.
-/

namespace Stencil

open Text

def TemplateFault.kind : TemplateFault → DirectiveKind
  | unexpectedEnd _ => .terminate
  | unexpectedElse _ => .alternative
  | unterminatedIf _ => .conditional
  | unterminatedLoop _ => .loop

variable {text : List Char} {e : TemplateFault} {t : Token} {ts : List Token}

theorem DirectiveKind.fault?_eq_some_iff {kind : DirectiveKind} {offset : Nat} :
    kind.fault? offset = some e ↔ e.kind = kind ∧ e.offset = offset := by
  constructor
  · intro h
    cases kind <;> cases h <;> exact ⟨rfl, rfl⟩
  · rintro ⟨rfl, rfl⟩
    cases e <;> rfl

theorem Token.exists_directive_of_fault? (h : t.fault? = some e) :
    ∃ d, t = .directive d ∧ d.kind = e.kind ∧ d.start = e.offset := by
  cases t with
  | literal text offset => cases h
  | directive d =>
    obtain ⟨hKind, hStart⟩ := DirectiveKind.fault?_eq_some_iff.mp h
    exact ⟨d, rfl, hKind.symm, hStart.symm⟩

namespace Template

/-- **A fault is told at one of the tokens.** -/
theorem exists_fault?_of_ofTokens (h : ofTokens ts = .error e) : ∃ t ∈ ts, t.fault? = some e := by
  rcases ofTokens_eq_error_iff.mp h with ⟨pre, t, post, f, rfl, -, hRejects⟩ | ⟨f, hReaches, hEnd⟩
  · exact ⟨t, List.mem_append_right pre List.mem_cons_self, hRejects.fault?⟩
  · obtain ⟨t, ⟨pre, inner, rfl, -⟩, hTold⟩ := hReaches.exists_innermostOpen hEnd
    exact ⟨t, List.mem_append_right pre List.mem_cons_self, hTold⟩

/-- **The directive at fault** is one of the text. -/
theorem exists_directive_of_error {rules : RuleSet} {source : String}
    (h : compileWith rules source = .error e) :
    ∃ d, .directive d ∈ rules.tokens source ∧ d.kind = e.kind ∧ d.start = e.offset := by
  obtain ⟨t, hMem, hTold⟩ := exists_fault?_of_ofTokens h
  obtain ⟨d, rfl, hKind, hStart⟩ := Token.exists_directive_of_fault? hTold
  exact ⟨d, hMem, hKind, hStart⟩

end Template

theorem Token.LiesIn.dropBytes_start (h : t.LiesIn text) :
    t.text.toList <+: dropBytes t.start text := by
  rw [h.text, String.toList_ofList]
  exact ⟨_, h.start.slice_append_dropBytes (Nat.le_of_lt h.lt)⟩

/-- **Positions lead back to offsets**: they come in the order of the offsets that cut no
character, each leads back to its own, and past the end there is the position of the end.  The
line and the column that are shown of a fault lead back to the begin of a directive of the text,
of the kind that the fault names. -/
theorem Template.positions_lead_back :
    (∀ (source : String) (i j : Nat), IsBoundary source.toList i → IsBoundary source.toList j →
      i < j → Position.ofOffset source i < Position.ofOffset source j) ∧
    (∀ (source : String) (i : Nat), IsBoundary source.toList i →
      (Position.ofOffset source i).offset? source = some i) ∧
    (∀ (source : String) (i : Nat), byteLength source.toList ≤ i →
      Position.ofOffset source i = Position.ofOffset source (byteLength source.toList)) ∧
    ∀ (rules : RuleSet) (name source : String) (e : TemplateFault),
      compileWith rules source = .error e →
        ∃ (d : Directive) (p : Position), .directive d ∈ rules.tokens source ∧ d.kind = e.kind ∧
          TemplateError.describe name source (.structural e) =
            name ++ ":" ++ toString p.line ++ ":" ++ toString p.column ++ ": " ++ e.message ∧
          p.offset? source = some d.start ∧
          d.raw ≠ "" ∧ d.raw.toList <+: dropBytes d.start source.toList := by
  refine ⟨fun _ _ _ => Position.ofOffset_lt_ofOffset, fun _ _ => Position.offset?_ofOffset,
    fun _ _ => Position.ofOffset_of_byteLength_le, fun rules name source e h => ?_⟩
  obtain ⟨d, hMem, hKind, hStart⟩ := exists_directive_of_error h
  have hLies := (rules.divides_tokens source).liesIn (isBoundary_zero _) _ hMem
  have hBack : (Position.ofOffset source e.offset).offset? source = some d.start := by
    rw [← hStart]
    exact Position.offset?_ofOffset hLies.start
  exact ⟨d, Position.ofOffset source e.offset, hMem, hKind, rfl, hBack, hLies.text_ne_empty,
    hLies.dropBytes_start⟩

/-- Offsets around a line break after a character of two bytes, and an alternative in a loop after
one of three bytes. -/
theorem Template.positions_lead_back_else :
    let source := "é\n€<% for (xs, x) %><%else%>"
    (IsBoundary source.toList 2 ∧ IsBoundary source.toList 3 ∧ 2 < 3 ∧
      Position.ofOffset source 2 < Position.ofOffset source 3) ∧
    (Position.ofOffset source 3).offset? source = some 3 ∧
    (byteLength source.toList ≤ 100 ∧
      Position.ofOffset source 100 = Position.ofOffset source (byteLength source.toList)) ∧
    compileWith RuleSet.standard source = .error (.unexpectedElse 23) ∧
      ∃ (d : Directive) (p : Position), .directive d ∈ RuleSet.standard.tokens source ∧
        d.kind = .alternative ∧
        TemplateError.describe "t" source (.structural (.unexpectedElse 23)) =
          "t" ++ ":" ++ toString p.line ++ ":" ++ toString p.column ++ ": " ++
            "unexpected else at offset 23" ∧
        p.offset? source = some d.start ∧
        d.raw ≠ "" ∧ d.raw.toList <+: dropBytes d.start source.toList := by
  intro source
  have hBreak : IsBoundary source.toList 2 :=
    ⟨['é'], "\n€<% for (xs, x) %><%else%>".toList, by decide +kernel, by decide⟩
  have hLine : IsBoundary source.toList 3 :=
    ⟨['é', '\n'], "€<% for (xs, x) %><%else%>".toList, by decide +kernel, by decide⟩
  have hLength : byteLength source.toList ≤ 100 := by decide +kernel
  have hTokens : RuleSet.standard.tokens source =
      [.literal "é\n€" 0,
        .directive ⟨.loop, some "xs", some "x", "<% for (xs, x) %>", 6, 23⟩] ++
        .directive ⟨.alternative, none, none, "<%else%>", 23, 31⟩ :: [] := by
    decide +kernel
  have hFault : compileWith RuleSet.standard source = .error (.unexpectedElse 23) := by
    rw [compileWith, hTokens]
    exact ofTokens_of_rejects (.loop (.root (.literal rfl .nil)) rfl .nil) (.alternative rfl nofun)
  obtain ⟨hOrder, hBack, hEnd, hShown⟩ := positions_lead_back
  exact ⟨⟨hBreak, hLine, by decide, hOrder source 2 3 hBreak hLine (by decide)⟩,
    hBack source 3 hLine, ⟨hLength, hEnd source 100 hLength⟩, hFault,
    hShown RuleSet.standard "t" source _ hFault⟩

end Stencil
