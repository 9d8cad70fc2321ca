import Mathlib.Data.List.Forall2
import Stencil.Proofs.Result
import Stencil.Proofs.Template.Fault
import Stencil.Proofs.Standard.Directives

/-!
# Templates of different dialects

A dialect only says which text is which directive.  Tokens with the same words compile to the
same template, or their faults are told at the same token, wherever the tokens stand and
whatever their text.

* `Token.Agrees`: tokens that mean the same (`Token.Agrees.word_eq`).
* `TemplateFault.withOffset`: a fault told at another place (`Token.fault?_of_word_eq`).
* `Balanced.of_words`, `Viable.of_words`, `InnermostOpen.of_words`: words alone tell whether
  tokens are balanced, whether they may go on and what they leave open.
* `Template.ofTokens_of_words`, `Template.ofTokens_eq_mapError`: what becomes of tokens with the
  same words.
* `Template.compileWith_of_agrees`: what becomes of two texts whose tokens mean the same.
-/

namespace Stencil

open Text

/-! ## Tokens that mean the same -/

/-- Whether two tokens mean the same: literals of one text, or directives of one kind with the
same path and, when they open loops, the same item name.  The blanks around these do not count,
and a path that is missing is an empty one. -/
def Token.Agrees : Token → Token → Prop
  | literal s _, literal t _ => s = t
  | directive d, directive e => d.kind = e.kind ∧
      trimmed (d.path.getD "") = trimmed (e.path.getD "") ∧
      (d.kind = .loop → trimmed (d.itemName.getD "") = trimmed (e.itemName.getD ""))
  | literal _ _, directive _ => False
  | directive _, literal _ _ => False

instance : DecidableRel Token.Agrees
  | .literal s _, .literal t _ => inferInstanceAs (Decidable (s = t))
  | .directive d, .directive e => inferInstanceAs (Decidable (d.kind = e.kind ∧
      trimmed (d.path.getD "") = trimmed (e.path.getD "") ∧
      (d.kind = .loop → trimmed (d.itemName.getD "") = trimmed (e.itemName.getD ""))))
  | .literal _ _, .directive _ => inferInstanceAs (Decidable False)
  | .directive _, .literal _ _ => inferInstanceAs (Decidable False)

/-- **Tokens that mean the same have the same word.** -/
theorem Token.Agrees.word_eq {t u : Token} (h : t.Agrees u) : t.word = u.word := by
  cases t with
  | literal s i =>
    cases u with
    | literal s' j => exact congrArg Word.literal h
    | directive e => exact h.elim
  | directive d =>
    cases u with
    | literal s' j => exact h.elim
    | directive e =>
      obtain ⟨hKind, hPath, hItem⟩ := h
      have hParsed : d.parsedPath = e.parsedPath := Path.parse_congr hPath
      show d.word = e.word
      rw [Directive.word, Directive.word, ← hKind, hParsed]
      cases hOpen : d.kind with
      | loop =>
        have hName : d.trimmedItemName = e.trimmedItemName := hItem hOpen
        simp only [hName]
      | _ => rfl

theorem map_word_eq_of_agrees {ts us : List Token} (h : List.Forall₂ Token.Agrees ts us) :
    ts.map Token.word = us.map Token.word := by
  induction h with
  | nil => rfl
  | cons hHead _ ih => rw [List.map_cons, List.map_cons, hHead.word_eq, ih]

/-! ## Faults at other places -/

def TemplateFault.withOffset (offset : Nat) : TemplateFault → TemplateFault
  | unexpectedEnd _ => unexpectedEnd offset
  | unexpectedElse _ => unexpectedElse offset
  | unterminatedIf _ => unterminatedIf offset
  | unterminatedLoop _ => unterminatedLoop offset

@[simp] theorem TemplateFault.withOffset_offset (e : TemplateFault) :
    e.withOffset e.offset = e := by
  cases e <;> rfl

variable {ts us : List Token} {t u : Token} {e : TemplateFault}

theorem Token.offset_of_fault? (h : t.fault? = some e) : e.offset = t.start := by
  obtain ⟨kind, -, hFault⟩ := Option.bind_eq_some_iff.mp h
  cases kind <;> cases hFault <;> rfl

/-- **Tokens with the same word have the same fault**, each at its own place. -/
theorem Token.fault?_of_word_eq (hWord : t.word = u.word) (h : t.fault? = some e) :
    u.fault? = some (e.withOffset u.start) := by
  obtain ⟨kind, hKind, hFault⟩ := Option.bind_eq_some_iff.mp h
  rw [kind?_eq, hWord, ← kind?_eq] at hKind
  rw [fault?, hKind]
  cases kind <;> cases hFault <;> rfl

/-! ## What words tell -/

theorem Balanced.of_words (h : Balanced ts) (hWords : ts.map Token.word = us.map Token.word) :
    Balanced us := by
  obtain ⟨ps, hps⟩ := h.exists_spells
  have hOther : Spells ps us := hps.trans hWords
  exact hOther.balanced

theorem Viable.of_words (h : Viable ts) (hWords : ts.map Token.word = us.map Token.word) :
    Viable us := by
  obtain ⟨more, hMore⟩ := h
  refine ⟨more, hMore.of_words ?_⟩
  rw [List.map_append, List.map_append, hWords]

/-- A token among others has a counterpart among tokens with the same words. -/
theorem exists_counterpart {pre post : List Token}
    (hWords : (pre ++ t :: post).map Token.word = us.map Token.word) :
    ∃ pre' u post', us = pre' ++ u :: post' ∧ pre.map Token.word = pre'.map Token.word ∧
      t.word = u.word ∧ post.map Token.word = post'.map Token.word := by
  rw [List.map_append, List.map_cons] at hWords
  obtain ⟨pre', rest, rfl, hPre, hRest⟩ := List.map_eq_append_iff.mp hWords.symm
  obtain ⟨u, post', rfl, hWord, hPost⟩ := List.map_eq_cons_iff.mp hRest
  exact ⟨pre', u, post', rfl, hPre.symm, hWord.symm, hPost.symm⟩

theorem exists_index_of_words {pre post pre' post' : List Token}
    (hWords : pre.map Token.word = pre'.map Token.word) :
    ∃ i : Nat, (pre ++ t :: post)[i]? = some t ∧ (pre' ++ u :: post')[i]? = some u := by
  have hLength : pre.length = pre'.length := by simpa using congrArg List.length hWords
  refine ⟨pre.length, ?_, ?_⟩
  · simp
  · rw [hLength]
    simp

theorem InnermostOpen.of_words (h : InnermostOpen ts t)
    (hWords : ts.map Token.word = us.map Token.word) :
    ∃ (i : Nat) (u : Token),
      ts[i]? = some t ∧ us[i]? = some u ∧ t.word = u.word ∧ InnermostOpen us u := by
  obtain ⟨pre, inner, rfl, hBlock⟩ := h
  obtain ⟨pre', u, inner', rfl, hPre, hWord, hInner⟩ := exists_counterpart hWords
  obtain ⟨i, hi, hi'⟩ := exists_index_of_words (t := t) (u := u) hPre
  refine ⟨i, u, hi, hi', hWord, pre', inner', rfl, ?_⟩
  rw [Token.kind?_eq, ← hWord, ← Token.kind?_eq]
  rcases hBlock with ⟨hOpen, hBalanced⟩ |
    ⟨hOpen, hBalanced | ⟨first, a, second, rfl, hFirst, hDivide, hSecond⟩⟩
  · exact .inl ⟨hOpen, hBalanced.of_words hInner⟩
  · exact .inr ⟨hOpen, .inl (hBalanced.of_words hInner)⟩
  · obtain ⟨first', a', second', rfl, hFirst', hDivide', hSecond'⟩ := exists_counterpart hInner
    rw [Token.kind?_eq, hDivide', ← Token.kind?_eq] at hDivide
    exact .inr ⟨hOpen, .inr ⟨first', a', second', rfl, hFirst.of_words hFirst', hDivide,
      hSecond.of_words hSecond'⟩⟩

/-! ## What becomes of tokens -/

/-- Whether the fault of tokens is told at a token, and that of other tokens at the one with
the same index. -/
def FailAlike (ts us : List Token) : Prop :=
  ∃ (i : Nat) (t u : Token) (e : TemplateFault),
    ts[i]? = some t ∧ us[i]? = some u ∧ e.offset = t.start ∧
      Template.ofTokens ts = .error e ∧ Template.ofTokens us = .error (e.withOffset u.start)

theorem FailAlike.of_fault? {i : Nat} {e' : TemplateFault} (hi : ts[i]? = some t)
    (hi' : us[i]? = some u) (hWord : t.word = u.word) (hFault : t.fault? = some e)
    (hFault' : u.fault? = some e') (hError : Template.ofTokens ts = .error e)
    (hError' : Template.ofTokens us = .error e') : FailAlike ts us := by
  have hTold := Token.fault?_of_word_eq hWord hFault
  obtain rfl : e' = e.withOffset u.start := Option.some.inj (hFault'.symm.trans hTold)
  exact ⟨i, t, u, e, hi, hi', Token.offset_of_fault? hFault, hError, hError'⟩

/-- **Tokens with the same words** compile to the same template, or fail alike. -/
theorem Template.ofTokens_of_words (h : ts.map Token.word = us.map Token.word) :
    (∃ t, ofTokens ts = .ok t ∧ ofTokens us = .ok t) ∨ FailAlike ts us := by
  rcases ofTokens_cases ts with ⟨ps, hps, hOk⟩ | ⟨pre, t, post, f, e, rfl, hPre, hRejects, hError⟩ |
    ⟨f, e, hReaches, hEnd, hError⟩
  · exact .inl ⟨⟨ps⟩, hOk, ofTokens_of_spells (hps.trans h)⟩
  · -- the words up to the token at fault tell that nothing helps after it
    obtain ⟨pre', u, post', rfl, hPre', hWord, -⟩ := exists_counterpart h
    obtain ⟨i, hi, hi'⟩ := exists_index_of_words (t := t) (u := u) hPre'
    have hNot : ¬Viable (pre' ++ [u]) := by
      intro hViable
      refine hPre.not_viable hRejects (hViable.of_words ?_)
      rw [List.map_append, List.map_append, hPre', List.map_singleton, List.map_singleton, hWord]
    obtain ⟨f', e', hReaches', hRejects'⟩ :=
      exists_rejects_of_not_viable (hPre.viable.of_words hPre') hNot
    exact .inr (.of_fault? hi hi' hWord hRejects.fault? hRejects'.fault? hError
      (ofTokens_of_rejects hReaches' hRejects'))
  · -- the words from the opening on tell the block that is open
    obtain ⟨t, hOpen, hFault⟩ := hReaches.exists_innermostOpen hEnd
    obtain ⟨i, u, hi, hi', hWord, hOpen'⟩ := hOpen.of_words h
    obtain ⟨f', e', hReaches', hEnd', hFault'⟩ :=
      hOpen'.exists_reaches (hReaches.viable.of_words h)
    exact .inr (.of_fault? hi hi' hWord hFault hFault' hError (ofTokens_of_atEnd hReaches' hEnd'))

/-- The same fault is told where a rule puts the tokens: when tokens with the same words start
where it says, so do their faults. -/
theorem Template.ofTokens_eq_mapError (place : Nat → Nat)
    (hWords : ts.map Token.word = us.map Token.word)
    (hStarts : us.map Token.start = ts.map fun t => place t.start) :
    ofTokens us = (ofTokens ts).mapError fun e => e.withOffset (place e.offset) := by
  rcases ofTokens_of_words hWords with ⟨t, hOk, hOk'⟩ |
    ⟨i, t, u, e, hi, hi', hOffset, hError, hError'⟩
  · rw [hOk, hOk']
    rfl
  · have hStart : u.start = place t.start := by
      have hSame := congrArg (fun starts : List Nat => starts[i]?) hStarts
      simpa [hi, hi'] using hSame
    rw [hError, hError', hStart, ← hOffset]
    rfl

/-! ## Texts -/

/-- **A dialect only says which text is which directive**: two texts whose tokens mean the same,
each under its own rules, compile to one template, or both fail with the same fault, told at
tokens with the same index. -/
theorem Template.compileWith_of_agrees (rules others : RuleSet) (source other : String)
    (h : List.Forall₂ Token.Agrees (rules.tokens source) (others.tokens other)) :
    (∃ t, compileWith rules source = .ok t ∧ compileWith others other = .ok t) ∨
      ∃ (i : Nat) (t u : Token) (e : TemplateFault),
        (rules.tokens source)[i]? = some t ∧ (others.tokens other)[i]? = some u ∧
          e.offset = t.start ∧ compileWith rules source = .error e ∧
          compileWith others other = .error (e.withOffset u.start) :=
  ofTokens_of_words (map_word_eq_of_agrees h)

/-- A loop that is never closed, in two dialects of which one names the item first. -/
theorem Template.compileWith_of_agrees_brackets :
    let brackets : Dialect := { loop := "\\[each (?<alias>[a-z]+) in (?<collection>[^\\]]+)\\]" }
    let source := "é<% for ( xs , x ) %><%=x%>"
    let other := "é[each x in xs]<%= x %>"
    ∃ others, RuleSet.make brackets = .ok others ∧
      List.Forall₂ Token.Agrees (RuleSet.standard.tokens source) (others.tokens other) ∧
      ((∃ t, compileWith RuleSet.standard source = .ok t ∧ compileWith others other = .ok t) ∨
        ∃ (i : Nat) (t u : Token) (e : TemplateFault),
          (RuleSet.standard.tokens source)[i]? = some t ∧ (others.tokens other)[i]? = some u ∧
            e.offset = t.start ∧ compileWith RuleSet.standard source = .error e ∧
            compileWith others other = .error (e.withOffset u.start)) := by
  intro brackets source other
  have hAgrees : ∀ others ∈ (RuleSet.make brackets).toOption,
      List.Forall₂ Token.Agrees (RuleSet.standard.tokens source) (others.tokens other) := by
    decide +kernel
  obtain ⟨others, hMake, h⟩ := Except.exists_eq_ok (by decide +kernel) hAgrees
  exact ⟨others, hMake, h, compileWith_of_agrees RuleSet.standard others source other h⟩

end Stencil
