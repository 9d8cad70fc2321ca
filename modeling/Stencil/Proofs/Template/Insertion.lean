import Stencil.Proofs.Standard.Directives
import Stencil.Proofs.Template.Compile
import Stencil.Proofs.Template.Copying

/-!
# Templates without blocks

A text whose directives only insert values always compiles, and its output is the text with the
values in the places of the directives.

* `Directive.inserted`: what is put in the place of a directive.
* `replaced`: a text with other texts in the places of directives.
* `RuleSet.Divides.replaced_eq`: it is made of the literals and the other texts, in order.
* `exists_spells_of_inserts`: the parts of tokens that only insert, and what they put out.
* `Form.Reading.exists_standsAt`: a directive of the standard dialect is a form of its text.
* `Template.compileWith_render_replaced`: the output of such a text.
-/

namespace Stencil

open Text

/-- What is put in the place of a directive that inserts a value: the text of the value, with
references when it is escaped, and nothing when the path leads to no value. -/
def Directive.inserted (c : Context) (d : Directive) : String :=
  match c.getPath? d.parsedPath.segments with
  | none => ""
  | some v => if d.kind = .escape then Stencil.escape v.text else v.text

/-- A text from an offset on, with other texts in the places of directives. -/
def replaced (text : List Char) (other : Directive → String) : Nat → List Directive → String
  | offset, [] => String.ofList (dropBytes offset text)
  | offset, d :: ds =>
    String.ofList (slice offset d.start text) ++ other d ++ replaced text other d.stop ds

def Token.shown (other : Directive → String) : Token → String
  | literal text _ => text
  | directive d => other d

/-- Whether a token opens, divides or closes no block. -/
def Token.Inserts (t : Token) : Prop :=
  t.kind? = none ∨ t.kind? = some .escape ∨ t.kind? = some .interpolate

instance (t : Token) : Decidable t.Inserts :=
  inferInstanceAs (Decidable (t.kind? = none ∨ t.kind? = some .escape ∨
    t.kind? = some .interpolate))

/-! ## What stands in the places of directives -/

section

variable {text : List Char} {rules : RuleSet} {other : Directive → String}

theorem replaced_cons (offset : Nat) (d : Directive) (ds : List Directive) :
    replaced text other offset (d :: ds) =
      String.ofList (slice offset d.start text) ++ replaced text other d.start (d :: ds) := by
  rw [replaced, replaced, slice_self, String.append_assoc]
  simp

/-- **What is replaced are the directives**, and the literals are kept between them. -/
theorem RuleSet.Divides.replaced_eq {i : Nat} {ts : List Token} (h : rules.Divides text i ts) :
    replaced text other i (ts.filterMap Token.directive?) =
      String.join (ts.map (Token.shown other)) := by
  induction h with
  | stop =>
    rw [List.filterMap_nil, replaced, dropBytes_byteLength]
    rfl
  | rest =>
    rw [List.map_singleton, join_singleton]
    rfl
  | @directive i d ts hAt _ ih =>
    obtain rfl := (directiveAt?_eq_some hAt).1
    rw [List.filterMap_cons, List.map_cons, String.join_cons, ← ih]
    simp only [Token.directive?, replaced, slice_self, Token.shown]
    simp
  | @literal i d ts _ _ _ ih =>
    rw [List.map_cons, String.join_cons, ← ih]
    exact replaced_cons i d _

end

/-! ## Parts that insert -/

theorem Directive.resolve_text (d : Directive) (c : Context) :
    (c.resolve d.parsedPath).text =
      ((c.getPath? d.parsedPath.segments).map Value.text).getD "" := by
  rw [Context.resolve]
  cases c.getPath? d.parsedPath.segments <;> rfl

/-- A token that only inserts is a part, and puts out what is put in its place. -/
theorem Token.exists_part {t : Token} (h : t.Inserts) :
    ∃ p : Part, p.words = [t.word] ∧ ∀ c, p.output c = t.shown (Directive.inserted c) := by
  cases t with
  | literal text offset => exact ⟨.literal text, rfl, fun c => rfl⟩
  | directive d =>
    have hKind : d.kind = .escape ∨ d.kind = .interpolate := by
      simpa [Inserts, kind?, directive?] using h
    rcases hKind with hKind | hKind
    · refine ⟨.escape d.parsedPath, ?_, fun c => ?_⟩
      · rw [word, Directive.word, hKind]
        rfl
      · rw [Part.output, d.resolve_text, shown, Directive.inserted, hKind]
        cases c.getPath? d.parsedPath.segments <;> rfl
    · refine ⟨.interpolate d.parsedPath, ?_, fun c => ?_⟩
      · rw [word, Directive.word, hKind]
        rfl
      · rw [Part.output, d.resolve_text, shown, Directive.inserted, hKind]
        cases c.getPath? d.parsedPath.segments <;> rfl

/-- **Tokens that only insert are parts**, which put out one after another what is put in their
places. -/
theorem exists_spells_of_inserts {ts : List Token} (h : ∀ t ∈ ts, t.Inserts) :
    ∃ ps, Spells ps ts ∧
      ∀ c, Part.outputOf ps c = String.join (ts.map (Token.shown (Directive.inserted c))) := by
  induction ts with
  | nil => exact ⟨[], .nil, fun c => rfl⟩
  | cons t ts ih =>
    obtain ⟨hHead, hRest⟩ := List.forall_mem_cons.mp h
    obtain ⟨p, hWords, hOutput⟩ := Token.exists_part hHead
    obtain ⟨ps, hSpells, hOutputs⟩ := ih hRest
    have hAll : Spells (p :: ps) ([t] ++ ts) := .cons hWords hSpells
    refine ⟨p :: ps, hAll, fun c => ?_⟩
    rw [Part.outputOf, List.map_cons, String.join_cons, hOutput, hOutputs]

theorem Template.exists_compileWith_of_inserts {rules : RuleSet} {source : String}
    (h : ∀ t ∈ rules.tokens source, t.Inserts) :
    ∃ t, compileWith rules source = .ok t ∧ ∀ c, t.render c =
      replaced source.toList (Directive.inserted c) 0
        ((rules.tokens source).filterMap Token.directive?) := by
  obtain ⟨ps, hSpells, hOutput⟩ := exists_spells_of_inserts h
  refine ⟨⟨ps⟩, ofTokens_of_spells hSpells, fun c => ?_⟩
  rw [(rules.divides_tokens source).replaced_eq, ← hOutput]
  exact Part.join_piecesOf (Scope.Shows.root c) ps

/-! ## Texts without directives -/

theorem Form.Reading.exists_standsAt {text : List Char} {i : Nat} {ts : List Token}
    (h : Reading text i ts) {d : Directive} (hd : .directive d ∈ ts) :
    ∃ f : Form, f.StandsAt text d.start := by
  induction h with
  | stop => cases hd
  | directive hStands hTells _ ih =>
    rcases List.mem_cons.mp hd with hSame | hMem
    · cases hSame
      rw [hTells.start]
      exact ⟨_, hStands⟩
    · exact ih hMem
  | literal _ _ _ _ ih =>
    rcases List.mem_cons.mp hd with hSame | hMem
    · cases hSame
    · exact ih hMem

theorem RuleSet.directive?_of_mem_tokens {source : String}
    (h : ¬['<', '%'] <:+: source.toList) :
    ∀ t ∈ standard.tokens source, t.directive? = none := by
  intro t ht
  cases t with
  | literal text offset => rfl
  | directive d =>
    obtain ⟨f, hStands⟩ := (reading_tokens source).exists_standsAt ht
    have hPlain : Form.Plain source.toList [] := by
      rw [Form.Plain, List.take_nil, List.append_nil]
      exact h
    have hText : source.toList = [] ++ source.toList ++ [] := by simp
    exact absurd hStands (hPlain.not_standsAt hText (Nat.zero_le _) hStands.lt f)

/-! ## Outputs -/

namespace Template

/-- **Only the directives are replaced**: a text whose directives insert values compiles, and
for every context its output is the text with what each directive inserts in its place, all
else where it was.  In the standard dialect a text without `<%` is put out as it is. -/
theorem compileWith_render_replaced :
    (∀ (rules : RuleSet) (source : String), (∀ t ∈ rules.tokens source, t.Inserts) →
      let ds := (rules.tokens source).filterMap Token.directive?
      replaced source.toList Directive.raw 0 ds = source ∧
        ∃ t, compileWith rules source = .ok t ∧
          ∀ c, t.render c = replaced source.toList (Directive.inserted c) 0 ds) ∧
    ∀ source : String, ¬['<', '%'] <:+: source.toList →
      ∃ t, compile .standard source = .ok t ∧ ∀ c, t.render c = source := by
  constructor
  · intro rules source h ds
    refine ⟨?_, exists_compileWith_of_inserts h⟩
    have hDivides := rules.divides_tokens source
    have hText : Token.shown Directive.raw = Token.text := by
      funext t
      cases t <;> rfl
    rw [hDivides.replaced_eq, hText, hDivides.join (isBoundary_zero _), dropBytes_zero,
      String.ofList_toList]
  · intro source h
    have hNone := RuleSet.directive?_of_mem_tokens h
    have hInserts : ∀ t ∈ RuleSet.standard.tokens source, t.Inserts := by
      intro t ht
      rw [Token.Inserts, Token.kind?, hNone t ht]
      exact .inl rfl
    obtain ⟨t, hCompile, hRender⟩ := exists_compileWith_of_inserts hInserts
    refine ⟨t, ?_, fun c => ?_⟩
    · rw [RuleSet.compile_standard, hCompile]
      rfl
    · rw [hRender, List.filterMap_eq_nil_iff.mpr hNone, replaced, dropBytes_zero,
        String.ofList_toList]

/-- Values between characters of several bytes, one of them a miss, and a text with a `<` before
a `%`. -/
theorem compileWith_render_replaced_mixed :
    let source := "é<%- a['b'] %><%=x%>\n<%=  \t%>€"
    let ds := (RuleSet.standard.tokens source).filterMap Token.directive?
    let other := "a < % é <"
    ((∀ t ∈ RuleSet.standard.tokens source, t.Inserts) ∧
      replaced source.toList Directive.raw 0 ds = source ∧
        ∃ t, compileWith RuleSet.standard source = .ok t ∧
          ∀ c, t.render c = replaced source.toList (Directive.inserted c) 0 ds) ∧
      ¬['<', '%'] <:+: other.toList ∧
        ∃ t, compile .standard other = .ok t ∧ ∀ c, t.render c = other := by
  intro source ds other
  have hInserts : ∀ t ∈ RuleSet.standard.tokens source, t.Inserts := by decide +kernel
  have hFree : ¬['<', '%'] <:+: other.toList := by decide +kernel
  exact ⟨⟨hInserts, compileWith_render_replaced.1 RuleSet.standard source hInserts⟩, hFree,
    compileWith_render_replaced.2 other hFree⟩

end Template

end Stencil
