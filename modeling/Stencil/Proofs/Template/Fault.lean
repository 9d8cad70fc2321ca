import Stencil.Proofs.Template.Compile

/-!
# Where the fault is

A text that does not compile has its fault at the first token after which no continuation
is balanced, or at the opening of the innermost block that its tokens leave open.

* `Viable.exists_reaches`: viable tokens lead into a block.
* `Template.ofTokens_eq_error_iff`: the fault of tokens is that of the first one that may
  not stand where it does, or that of the block where they end.
* `Token.fault?`: the fault that is told at a token.
* `FirstInviable`: where tokens stop to be viable (`exists_rejects_of_not_viable`).
* `InnermostOpen`: the token that opens the innermost block that tokens leave open.  It is
  the one that they lead into (`InnermostOpen.exists_reaches`,
  `Reaches.exists_innermostOpen`).
* `Template.compileWith_eq_error_iff_viable`: the fault of a text.
-/

namespace Stencil

open Template (ofTokens ofTokens_cases ofTokens_of_rejects ofTokens_of_atEnd ofTokens_of_spells)

variable {ts : List Token} {t : Token} {f : Frame} {e : TemplateFault}

/-! ## Viable tokens -/

theorem Balanced.ofTokens_ne_error (h : Balanced ts) : ofTokens ts ≠ .error e := by
  obtain ⟨ps, hps⟩ := h.exists_spells
  rw [ofTokens_of_spells hps]
  exact nofun

/-- After a token that may not stand where it does nothing helps. -/
theorem Reaches.not_viable (h : Reaches ts f) (hRejects : Rejects f t e) :
    ¬ Viable (ts ++ [t]) := by
  rintro ⟨more, hMore⟩
  rw [List.append_assoc, List.singleton_append] at hMore
  exact hMore.ofTokens_ne_error (ofTokens_of_rejects h hRejects)

/-- **Viable tokens lead into a block.** -/
theorem Viable.exists_reaches (h : Viable ts) : ∃ f, Reaches ts f := by
  rcases Reaches.init.run ts with hReaches | ⟨pre, t, post, f, e, hEq, hPre, hRejects⟩
  · exact hReaches
  · rw [List.nil_append] at hEq
    rw [hEq, List.append_cons] at h
    exact absurd h.of_append (hPre.not_viable hRejects)

theorem Reaches.not_balanced (h : Reaches ts f) (hEnd : f.atEnd = .error e) : ¬ Balanced ts := by
  intro hBalanced
  exact hBalanced.ofTokens_ne_error (ofTokens_of_atEnd h hEnd)

/-- **The fault of tokens**: that of the first one that may not stand where it does, or that
of the block where they end. -/
theorem Template.ofTokens_eq_error_iff : ofTokens ts = .error e ↔
    (∃ pre t post f, ts = pre ++ t :: post ∧ Reaches pre f ∧ Rejects f t e) ∨
      ∃ f, Reaches ts f ∧ f.atEnd = .error e := by
  constructor
  · intro hError
    rcases ofTokens_cases ts with ⟨ps, _, hEq⟩ | ⟨pre, t, post, f, e', hts, h, hRejects, hEq⟩ |
      ⟨f, e', h, hEnd, hEq⟩
    · rw [hEq] at hError
      cases hError
    · rw [hEq] at hError
      cases hError
      exact .inl ⟨pre, t, post, f, hts, h, hRejects⟩
    · rw [hEq] at hError
      cases hError
      exact .inr ⟨f, h, hEnd⟩
  · rintro (⟨pre, t, post, f, rfl, h, hRejects⟩ | ⟨f, h, hEnd⟩)
    · exact ofTokens_of_rejects h hRejects
    · exact ofTokens_of_atEnd h hEnd

/-! ## The token where a fault is told -/

/-- The fault that is told at a directive of a kind that starts at an offset: one that may
not stand where it does, or a block that is never closed. -/
def DirectiveKind.fault? (kind : DirectiveKind) (offset : Nat) : Option TemplateFault :=
  match kind with
  | .escape => none
  | .interpolate => none
  | .loop => some (.unterminatedLoop offset)
  | .conditional => some (.unterminatedIf offset)
  | .alternative => some (.unexpectedElse offset)
  | .terminate => some (.unexpectedEnd offset)

def Token.fault? (t : Token) : Option TemplateFault := t.kind?.bind (·.fault? t.start)

theorem Token.fault?_eq_some_iff {kind : DirectiveKind} {offset : Nat}
    (h : kind.fault? offset = some e) :
    t.fault? = some e ↔ t.kind? = some kind ∧ t.start = offset := by
  constructor
  · intro hFault
    obtain ⟨kind', hKind', hFault'⟩ := Option.bind_eq_some_iff.mp hFault
    rw [hKind']
    cases kind <;> cases h <;> cases kind' <;> cases hFault' <;> exact ⟨rfl, rfl⟩
  · rintro ⟨hKind, rfl⟩
    rw [fault?, hKind]
    exact h

theorem Rejects.fault? (h : Rejects f t e) : t.fault? = some e := by
  cases h with
  | terminator hKind => exact (Token.fault?_eq_some_iff rfl).mpr ⟨hKind, rfl⟩
  | alternative hKind => exact (Token.fault?_eq_some_iff rfl).mpr ⟨hKind, rfl⟩

theorem Rejects.kind? (h : Rejects f t e) :
    t.kind? = some .terminate ∨ t.kind? = some .alternative := by
  cases h with
  | terminator hKind => exact .inl hKind
  | alternative hKind => exact .inr hKind

/-! ## The first token at fault -/

/-- Whether the first token after which tokens are not viable is a directive of a kind that
starts at an offset. -/
def FirstInviable (kind : DirectiveKind) (offset : Nat) (ts : List Token) : Prop :=
  ∃ pre t post, ts = pre ++ t :: post ∧ t.kind? = some kind ∧ t.start = offset ∧
    Viable pre ∧ ¬ Viable (pre ++ [t])

/-- **Tokens stop to be viable** at one that may not stand where it does. -/
theorem exists_rejects_of_not_viable (h : Viable ts) (hNot : ¬ Viable (ts ++ [t])) :
    ∃ f e, Reaches ts f ∧ Rejects f t e := by
  obtain ⟨f, hReaches⟩ := h.exists_reaches
  rcases hReaches.step t with ⟨g, hNext⟩ | ⟨e, hRejects⟩
  · exact absurd hNext.viable hNot
  · exact ⟨f, e, hReaches, hRejects⟩

theorem Template.ofTokens_eq_error_iff_firstInviable {kind : DirectiveKind} {offset : Nat}
    (hFault : kind.fault? offset = some e) (hKind : kind = .terminate ∨ kind = .alternative) :
    ofTokens ts = .error e ↔ FirstInviable kind offset ts := by
  rw [ofTokens_eq_error_iff]
  constructor
  · rintro (⟨pre, t, post, f, hts, h, hRejects⟩ | ⟨f, _, hEnd⟩)
    · obtain ⟨hKind', hStart⟩ := (Token.fault?_eq_some_iff hFault).mp hRejects.fault?
      exact ⟨pre, t, post, hts, hKind', hStart, h.viable, h.not_viable hRejects⟩
    · rcases hKind with rfl | rfl <;> cases hFault <;> cases f <;> cases hEnd
  · rintro ⟨pre, t, post, hts, hKind', hStart, hPre, hNot⟩
    obtain ⟨f, e', h, hRejects⟩ := exists_rejects_of_not_viable hPre hNot
    have hEq := hRejects.fault?.symm.trans
      ((Token.fault?_eq_some_iff hFault).mpr ⟨hKind', hStart⟩)
    cases hEq
    exact .inl ⟨pre, t, post, f, hts, h, hRejects⟩

/-! ## The block that is never closed -/

/-- Whether a token opens the innermost block that tokens leave open: what follows it is
balanced, but for one alternative of its own when it opens a conditional. -/
def InnermostOpen (ts : List Token) (t : Token) : Prop :=
  ∃ pre inner, ts = pre ++ t :: inner ∧
    (t.kind? = some .loop ∧ Balanced inner ∨
      t.kind? = some .conditional ∧ (Balanced inner ∨
        ∃ first a second, inner = first ++ a :: second ∧ Balanced first ∧
          a.kind? = some .alternative ∧ Balanced second))

/-- The token that opens the innermost open block is the one where its fault is told. -/
theorem Reaches.exists_innermostOpen (h : Reaches ts f) (hEnd : f.atEnd = .error e) :
    ∃ t, InnermostOpen ts t ∧ t.fault? = some e := by
  cases h with
  | root => cases hEnd
  | @loop ts inner f t _ hOpen hInner =>
    cases hEnd
    exact ⟨t, ⟨ts, inner, rfl, .inl ⟨hOpen, hInner⟩⟩,
      (Token.fault?_eq_some_iff rfl).mpr ⟨hOpen, rfl⟩⟩
  | @thenBranch ts inner f t _ hOpen hInner =>
    cases hEnd
    exact ⟨t, ⟨ts, inner, rfl, .inr ⟨hOpen, .inl hInner⟩⟩,
      (Token.fault?_eq_some_iff rfl).mpr ⟨hOpen, rfl⟩⟩
  | @elseBranch ts first second f t a _ hOpen hFirst hDivide hSecond =>
    cases hEnd
    exact ⟨t, ⟨ts, _, rfl, .inr ⟨hOpen, .inr ⟨first, a, second, rfl, hFirst, hDivide, hSecond⟩⟩⟩,
      (Token.fault?_eq_some_iff rfl).mpr ⟨hOpen, rfl⟩⟩

theorem InnermostOpen.exists_reaches (h : InnermostOpen ts t) (hViable : Viable ts) :
    ∃ f e, Reaches ts f ∧ f.atEnd = .error e ∧ t.fault? = some e := by
  obtain ⟨pre, inner, rfl, hBlock⟩ := h
  obtain ⟨f, hPre⟩ := hViable.of_append.exists_reaches
  rcases hBlock with ⟨hOpen, hInner⟩ |
    ⟨hOpen, hInner | ⟨first, a, second, rfl, hFirst, hDivide, hSecond⟩⟩
  · exact ⟨_, _, .loop hPre hOpen hInner, rfl,
      (Token.fault?_eq_some_iff rfl).mpr ⟨hOpen, rfl⟩⟩
  · exact ⟨_, _, .thenBranch hPre hOpen hInner, rfl,
      (Token.fault?_eq_some_iff rfl).mpr ⟨hOpen, rfl⟩⟩
  · exact ⟨_, _, .elseBranch hPre hOpen hFirst hDivide hSecond, rfl,
      (Token.fault?_eq_some_iff rfl).mpr ⟨hOpen, rfl⟩⟩

theorem Template.ofTokens_eq_error_iff_innermostOpen {kind : DirectiveKind} {offset : Nat}
    (hFault : kind.fault? offset = some e) (hKind : kind = .loop ∨ kind = .conditional) :
    ofTokens ts = .error e ↔ Viable ts ∧ ¬ Balanced ts ∧
      ∃ t, InnermostOpen ts t ∧ t.kind? = some kind ∧ t.start = offset := by
  rw [ofTokens_eq_error_iff]
  constructor
  · rintro (⟨_, t, _, _, _, _, hRejects⟩ | ⟨f, h, hEnd⟩)
    · obtain ⟨hKind', _⟩ := (Token.fault?_eq_some_iff hFault).mp hRejects.fault?
      rcases hKind with rfl | rfl <;> rcases hRejects.kind? with hOther | hOther <;>
        rw [hKind'] at hOther <;> cases hOther
    · obtain ⟨t, hOpen, hTold⟩ := h.exists_innermostOpen hEnd
      exact ⟨h.viable, h.not_balanced hEnd, t, hOpen,
        (Token.fault?_eq_some_iff hFault).mp hTold⟩
  · rintro ⟨hViable, _, t, hOpen, hKind', hStart⟩
    obtain ⟨f, e', h, hEnd, hTold⟩ := hOpen.exists_reaches hViable
    have hEq := hTold.symm.trans ((Token.fault?_eq_some_iff hFault).mpr ⟨hKind', hStart⟩)
    cases hEq
    exact .inr ⟨f, h, hEnd⟩

theorem Template.exists_unterminated_iff :
    (∃ offset, ofTokens ts = .error (.unterminatedLoop offset) ∨
      ofTokens ts = .error (.unterminatedIf offset)) ↔ Viable ts ∧ ¬ Balanced ts := by
  constructor
  · rintro ⟨offset, hLoop | hIf⟩
    · obtain ⟨hViable, hNot, _⟩ := (ofTokens_eq_error_iff_innermostOpen rfl (.inl rfl)).mp hLoop
      exact ⟨hViable, hNot⟩
    · obtain ⟨hViable, hNot, _⟩ := (ofTokens_eq_error_iff_innermostOpen rfl (.inr rfl)).mp hIf
      exact ⟨hViable, hNot⟩
  · rintro ⟨hViable, hNot⟩
    obtain ⟨f, h⟩ := hViable.exists_reaches
    cases f with
    | root =>
      cases h with
      | root hts => exact absurd hts hNot
    | loop opened => exact ⟨opened, .inl (ofTokens_of_atEnd h rfl)⟩
    | thenBranch opened => exact ⟨opened, .inr (ofTokens_of_atEnd h rfl)⟩
    | elseBranch opened => exact ⟨opened, .inr (ofTokens_of_atEnd h rfl)⟩

/-! ## Texts -/

/-- **The fault of a text is where its tokens stop to be viable**: an unexpected end or
alternative is the first token after which no continuation is balanced, whatever follows
it; a text whose tokens may go on but are not balanced has an unterminated block, the
innermost one, told at its opening. -/
theorem Template.compileWith_eq_error_iff_viable (rules : RuleSet) (source : String) :
    (∀ offset, compileWith rules source = .error (.unexpectedEnd offset) ↔
      FirstInviable .terminate offset (rules.tokens source)) ∧
    (∀ offset, compileWith rules source = .error (.unexpectedElse offset) ↔
      FirstInviable .alternative offset (rules.tokens source)) ∧
    ((∃ offset, compileWith rules source = .error (.unterminatedLoop offset) ∨
        compileWith rules source = .error (.unterminatedIf offset)) ↔
      Viable (rules.tokens source) ∧ ¬ Balanced (rules.tokens source)) ∧
    (∀ offset, compileWith rules source = .error (.unterminatedLoop offset) ↔
      Viable (rules.tokens source) ∧ ¬ Balanced (rules.tokens source) ∧
        ∃ t, InnermostOpen (rules.tokens source) t ∧ t.kind? = some .loop ∧ t.start = offset) ∧
    (∀ offset, compileWith rules source = .error (.unterminatedIf offset) ↔
      Viable (rules.tokens source) ∧ ¬ Balanced (rules.tokens source) ∧
        ∃ t, InnermostOpen (rules.tokens source) t ∧ t.kind? = some .conditional ∧
          t.start = offset) := by
  refine ⟨?_, ?_, exists_unterminated_iff, ?_, ?_⟩
  · intro offset
    exact ofTokens_eq_error_iff_firstInviable rfl (.inl rfl)
  · intro offset
    exact ofTokens_eq_error_iff_firstInviable rfl (.inr rfl)
  · intro offset
    exact ofTokens_eq_error_iff_innermostOpen rfl (.inl rfl)
  · intro offset
    exact ofTokens_eq_error_iff_innermostOpen rfl (.inr rfl)

end Stencil
