import Stencil.Proofs.Template.Viable

/-!
# What is compiled

A text compiles when the grammar derives its tokens, and its template is the tree of the
derivation.

* `Frame.parse_cons`: what a call does with the first token, by its word.
* `Adds`: tokens whose parts come before what is read after them; those of a tree do so
  (`Spells.adds`).
* `Reaches.parse_error`: a fault in a block is the fault of the whole.
* `Template.ofTokens_cases`: what becomes of any tokens.
* `Template.ofTokens_eq_ok_iff`: the template of tokens is the one that spells them.
-/

namespace Stencil

/-! ## The first token -/

namespace PartialParse

theorem map_prepend_nil (r : Except TemplateFault PartialParse) : r.map (prepend []) = r := by
  cases r <;> rfl

theorem map_prepend_prepend (ps qs : List Part) (r : Except TemplateFault PartialParse) :
    (r.map (prepend qs)).map (prepend ps) = r.map (prepend (ps ++ qs)) := by
  cases r with
  | error e => rfl
  | ok p =>
    show Except.ok (prepend ps (prepend qs p)) = Except.ok (prepend (ps ++ qs) p)
    rw [prepend, prepend, prepend, List.append_assoc]

end PartialParse

namespace Frame

variable {t : Token}

/-- A call that goes on with what an earlier call leaves, without the bounds on the tokens
left. -/
theorem map_val_bind {ts us : List Token}
    {r : Except TemplateFault { p : PartialParse // p.rest.length ≤ ts.length }}
    {next : { p : PartialParse // p.rest.length ≤ ts.length } →
      Except TemplateFault { p : PartialParse // p.rest.length ≤ us.length }}
    {next' : PartialParse → Except TemplateFault PartialParse}
    (h : ∀ p hp, (next ⟨p, hp⟩).map Subtype.val = next' p) :
    (r.bind next).map Subtype.val = (r.map Subtype.val).bind next' := by
  cases r with
  | error e => rfl
  | ok p => exact h p.val p.property

theorem parse_nil (f : Frame) :
    f.parse [] = f.atEnd.map fun closer => ⟨[], closer, []⟩ := by
  rw [parse, compileScope]
  cases f.atEnd <;> rfl

/-- **What a call does with the first token** is told by its word and, for a fault or a
block, the place where it starts. -/
theorem parse_cons (f : Frame) (t : Token) (ts : List Token) : f.parse (t :: ts) =
    match t.word with
    | .literal text => (f.parse ts).map (.prepend [.literal text])
    | .escape path => (f.parse ts).map (.prepend [.escape path])
    | .interpolate path => (f.parse ts).map (.prepend [.interpolate path])
    | .openLoop collection itemName _ =>
      (parse (.loop t.start) ts).bind fun body =>
        (f.parse body.rest).map (.prepend [.loopOver collection itemName body.parts])
    | .openIf condition =>
      (parse (.thenBranch t.start) ts).bind fun first =>
        match first.closedBy with
        | .alternative =>
          (parse (.elseBranch t.start) first.rest).bind fun second =>
            (f.parse second.rest).map
              (.prepend [.conditional condition first.parts (some second.parts)])
        | _ => (f.parse first.rest).map (.prepend [.conditional condition first.parts none])
    | .divide => (f.atAlternative t.start).map fun closer => ⟨[], closer, ts⟩
    | .close => (f.atTerminator t.start).map fun closer => ⟨[], closer, ts⟩ := by
  -- a call for a block returns a bound on the tokens left, which `map_val_bind` forgets
  cases t with
  | literal text offset =>
    rw [parse, compileScope]
    exact map_val_bind fun _ _ => rfl
  | directive d =>
    rw [parse, compileScope, Token.word, Directive.word]
    cases d.kind with
    | escape => exact map_val_bind fun _ _ => rfl
    | interpolate => exact map_val_bind fun _ _ => rfl
    | loop =>
      refine map_val_bind fun body _ => ?_
      exact map_val_bind fun _ _ => rfl
    | conditional =>
      refine map_val_bind fun first _ => ?_
      obtain ⟨parts, closedBy, rest⟩ := first
      cases closedBy with
      | alternative =>
        refine map_val_bind fun second _ => ?_
        exact map_val_bind fun _ _ => rfl
      | terminator => exact map_val_bind fun _ _ => rfl
      | endOfInput => exact map_val_bind fun _ _ => rfl
    | alternative => cases f <;> rfl
    | terminate => cases f <;> rfl

theorem parse_close (f : Frame) (ts : List Token) (h : t.word = .close) :
    f.parse (t :: ts) = (f.atTerminator t.start).map fun closer => ⟨[], closer, ts⟩ := by
  rw [parse_cons, h]

theorem parse_divide (f : Frame) (ts : List Token) (h : t.word = .divide) :
    f.parse (t :: ts) = (f.atAlternative t.start).map fun closer => ⟨[], closer, ts⟩ := by
  rw [parse_cons, h]

end Frame

/-! ## The tokens of a tree -/

/-- **Whether tokens add parts**: a call puts the parts before those that it reads after the
tokens, in whatever block. -/
def Adds (ps : List Part) (ts : List Token) : Prop :=
  ∀ (f : Frame) (more : List Token), f.parse (ts ++ more) = (f.parse more).map (.prepend ps)

namespace Adds

variable {ps qs : List Part} {ts us : List Token} {t e : Token}

theorem nil : Adds [] [] := by
  intro f more
  rw [List.nil_append, PartialParse.map_prepend_nil]

theorem append (h₁ : Adds ps ts) (h₂ : Adds qs us) : Adds (ps ++ qs) (ts ++ us) := by
  intro f more
  rw [List.append_assoc, h₁, h₂, PartialParse.map_prepend_prepend]

theorem terminated (h : Adds ps ts) (he : e.word = .close) {f : Frame} (hRoot : f ≠ .root)
    (more : List Token) : f.parse (ts ++ e :: more) = .ok ⟨ps, .terminator, more⟩ := by
  have hClose : f.atTerminator e.start = .ok .terminator := by
    cases f with
    | root => exact absurd rfl hRoot
    | loop => rfl
    | thenBranch => rfl
    | elseBranch => rfl
  rw [h, Frame.parse_close f more he, hClose]
  show Except.ok (PartialParse.mk (ps ++ []) .terminator more) = _
  rw [List.append_nil]

theorem divided {a : Token} (h : Adds ps ts) (ha : a.word = .divide) (opened : Nat)
    (more : List Token) :
    Frame.parse (.thenBranch opened) (ts ++ a :: more) = .ok ⟨ps, .alternative, more⟩ := by
  rw [h, Frame.parse_divide _ more ha]
  show Except.ok (PartialParse.mk (ps ++ []) .alternative more) = _
  rw [List.append_nil]

theorem literal {text : String} (ht : t.word = .literal text) : Adds [.literal text] [t] := by
  intro f more
  rw [List.singleton_append, Frame.parse_cons, ht]

theorem escape {path : Path} (ht : t.word = .escape path) : Adds [.escape path] [t] := by
  intro f more
  rw [List.singleton_append, Frame.parse_cons, ht]

theorem interpolate {path : Path} (ht : t.word = .interpolate path) :
    Adds [.interpolate path] [t] := by
  intro f more
  rw [List.singleton_append, Frame.parse_cons, ht]

theorem loop {collection : Path} {itemName indexName : String}
    (ht : t.word = .openLoop collection itemName indexName) (h : Adds ps ts)
    (he : e.word = .close) :
    Adds [.loop collection itemName indexName ps] (t :: (ts ++ [e])) := by
  intro f more
  obtain rfl := Token.indexName_of_word ht
  have hBody := h.terminated he (f := .loop t.start) Frame.noConfusion more
  rw [List.cons_append, List.append_assoc, List.singleton_append, Frame.parse_cons, ht]
  simp only [hBody]
  rfl

theorem conditional {condition : Path} (ht : t.word = .openIf condition) (h : Adds ps ts)
    (he : e.word = .close) :
    Adds [.conditional condition ps none] (t :: (ts ++ [e])) := by
  intro f more
  have hBody := h.terminated he (f := .thenBranch t.start) Frame.noConfusion more
  rw [List.cons_append, List.append_assoc, List.singleton_append, Frame.parse_cons, ht]
  simp only [hBody]
  rfl

theorem branches {condition : Path} {a : Token} (ht : t.word = .openIf condition)
    (h₁ : Adds ps ts) (ha : a.word = .divide) (h₂ : Adds qs us) (he : e.word = .close) :
    Adds [.conditional condition ps (some qs)] (t :: (ts ++ a :: (us ++ [e]))) := by
  intro f more
  have hFirst := h₁.divided ha t.start (us ++ e :: more)
  have hSecond := h₂.terminated he (f := .elseBranch t.start) Frame.noConfusion more
  rw [List.cons_append, List.append_assoc, List.cons_append, List.append_assoc,
    List.singleton_append, Frame.parse_cons, ht]
  simp only [hFirst]
  show (Frame.parse _ (us ++ e :: more)).bind _ = _
  rw [hSecond]
  rfl

end Adds

/-- **The tokens of a tree add its parts.** -/
theorem Spells.adds {ps : List Part} {ts : List Token} (h : Spells ps ts) : Adds ps ts := by
  induction ps using Part.listInduction generalizing ts with
  | nil =>
    obtain rfl := List.map_eq_nil_iff.mp h.symm
    exact .nil
  | literal text ps ih =>
    obtain ⟨us, more, rfl, hp, hps⟩ := h.cons_inv
    obtain ⟨t, rfl, ht⟩ := single_eq_map_word.mp hp
    exact (Adds.literal ht).append (ih hps)
  | escape path ps ih =>
    obtain ⟨us, more, rfl, hp, hps⟩ := h.cons_inv
    obtain ⟨t, rfl, ht⟩ := single_eq_map_word.mp hp
    exact (Adds.escape ht).append (ih hps)
  | interpolate path ps ih =>
    obtain ⟨us, more, rfl, hp, hps⟩ := h.cons_inv
    obtain ⟨t, rfl, ht⟩ := single_eq_map_word.mp hp
    exact (Adds.interpolate ht).append (ih hps)
  | loop collection itemName indexName body ps ihBody ih =>
    obtain ⟨us, more, rfl, hp, hps⟩ := h.cons_inv
    obtain ⟨t, vs, e, rfl, ht, hvs, he⟩ := Part.words_loop.mp hp
    exact (Adds.loop ht (ihBody hvs) he).append (ih hps)
  | conditional condition body ps ihBody ih =>
    obtain ⟨us, more, rfl, hp, hps⟩ := h.cons_inv
    obtain ⟨t, vs, e, rfl, ht, hvs, he⟩ := Part.words_conditional.mp hp
    exact (Adds.conditional ht (ihBody hvs) he).append (ih hps)
  | branches condition first second ps ihFirst ihSecond ih =>
    obtain ⟨us, more, rfl, hp, hps⟩ := h.cons_inv
    obtain ⟨t, vs, a, ws, e, rfl, ht, hvs, ha, hws, he⟩ := Part.words_branches.mp hp
    exact (Adds.branches ht (ihFirst hvs) ha (ihSecond hws) he).append (ih hps)

/-! ## Faults -/

theorem Balanced.parse_error {f : Frame} {ts more : List Token} {e : TemplateFault}
    (h : Balanced ts) (hMore : f.parse more = .error e) : f.parse (ts ++ more) = .error e := by
  obtain ⟨ps, hps⟩ := h.exists_spells
  rw [hps.adds, hMore]
  rfl

theorem Rejects.parse_error {f : Frame} {t : Token} {e : TemplateFault} (h : Rejects f t e)
    (ts : List Token) : f.parse (t :: ts) = .error e := by
  cases h with
  | terminator hKind =>
    rw [Frame.parse_close _ ts (Token.word_eq_close hKind)]
    rfl
  | alternative hKind hThen =>
    rw [Frame.parse_divide _ ts (Token.word_eq_divide hKind)]
    cases f with
    | thenBranch opened => exact absurd rfl (hThen opened)
    | root => rfl
    | loop => rfl
    | elseBranch => rfl

/-- **A fault in a block is the fault of the whole**, however many blocks are around. -/
theorem Reaches.parse_error {ts more : List Token} {f : Frame} {e : TemplateFault}
    (h : Reaches ts f) (hMore : f.parse more = .error e) :
    Frame.root.parse (ts ++ more) = .error e := by
  -- the call that reads the innermost block fails, so the one that opened it does
  induction h generalizing more with
  | root hts => exact hts.parse_error hMore
  | @loop ts inner f t _ hOpen hInner ih =>
    obtain ⟨collection, itemName, indexName, ht⟩ := Token.exists_word_openLoop hOpen
    rw [List.append_assoc, List.cons_append]
    refine ih ?_
    rw [Frame.parse_cons, ht]
    show (Frame.parse _ (inner ++ more)).bind _ = _
    rw [hInner.parse_error hMore]
    rfl
  | @thenBranch ts inner f t _ hOpen hInner ih =>
    obtain ⟨condition, ht⟩ := Token.exists_word_openIf hOpen
    rw [List.append_assoc, List.cons_append]
    refine ih ?_
    rw [Frame.parse_cons, ht]
    show (Frame.parse _ (inner ++ more)).bind _ = _
    rw [hInner.parse_error hMore]
    rfl
  | @elseBranch ts first second f t a _ hOpen hFirst hDivide hSecond ih =>
    obtain ⟨condition, ht⟩ := Token.exists_word_openIf hOpen
    obtain ⟨ps, hps⟩ := hFirst.exists_spells
    have hDivided := hps.adds.divided (Token.word_eq_divide hDivide) t.start (second ++ more)
    rw [List.append_assoc, List.cons_append, List.append_assoc, List.cons_append]
    refine ih ?_
    rw [Frame.parse_cons, ht]
    simp only [hDivided]
    show (Frame.parse _ (second ++ more)).bind _ = _
    rw [hSecond.parse_error hMore]
    rfl

/-! ## Templates -/

namespace Template

variable {ts : List Token}

theorem ofTokens_of_spells {ps : List Part} (h : Spells ps ts) : ofTokens ts = .ok ⟨ps⟩ := by
  have hAll := h.adds .root []
  rw [List.append_nil] at hAll
  rw [ofTokens, hAll, Frame.parse_nil]
  show Except.ok (Template.mk (ps ++ [])) = _
  rw [List.append_nil]

theorem ofTokens_of_rejects {pre post : List Token} {t : Token} {f : Frame} {e : TemplateFault}
    (h : Reaches pre f) (hRejects : Rejects f t e) : ofTokens (pre ++ t :: post) = .error e := by
  rw [ofTokens, h.parse_error (hRejects.parse_error post)]
  rfl

theorem ofTokens_of_atEnd {f : Frame} {e : TemplateFault} (h : Reaches ts f)
    (hEnd : f.atEnd = .error e) : ofTokens ts = .error e := by
  have hNil : f.parse [] = .error e := by
    rw [Frame.parse_nil, hEnd]
    rfl
  have hAll := h.parse_error hNil
  rw [List.append_nil] at hAll
  rw [ofTokens, hAll]
  rfl

/-- **What becomes of tokens**: they are those of a tree, or one of them may not stand where
it does, or they end in a block that is open. -/
theorem ofTokens_cases (ts : List Token) :
    (∃ ps, Spells ps ts ∧ ofTokens ts = .ok ⟨ps⟩) ∨
      (∃ pre t post f e, ts = pre ++ t :: post ∧ Reaches pre f ∧ Rejects f t e ∧
        ofTokens ts = .error e) ∨
      ∃ f e, Reaches ts f ∧ f.atEnd = .error e ∧ ofTokens ts = .error e := by
  rcases Reaches.init.run ts with ⟨f, h⟩ | ⟨pre, t, post, f, e, hEq, h, hRejects⟩
  · rw [List.nil_append] at h
    rcases hEnd : f.atEnd with e | closer
    · exact .inr (.inr ⟨f, e, h, hEnd, ofTokens_of_atEnd h hEnd⟩)
    · cases h with
      | root hts =>
        obtain ⟨ps, hps⟩ := hts.exists_spells
        exact .inl ⟨ps, hps, ofTokens_of_spells hps⟩
      | loop => cases hEnd
      | thenBranch => cases hEnd
      | elseBranch => cases hEnd
  · rw [List.nil_append] at hEq
    refine .inr (.inl ⟨pre, t, post, f, e, hEq, h, hRejects, ?_⟩)
    rw [hEq]
    exact ofTokens_of_rejects h hRejects

/-- **The template of tokens is the one that spells them.** -/
theorem ofTokens_eq_ok_iff {t : Template} : ofTokens ts = .ok t ↔ Spells t.parts ts := by
  constructor
  · intro hOk
    rcases ofTokens_cases ts with ⟨ps, hps, hEq⟩ | ⟨_, _, _, _, e, _, _, _, hEq⟩ |
      ⟨_, e, _, _, hEq⟩
    · rw [hEq] at hOk
      cases hOk
      exact hps
    · rw [hEq] at hOk
      cases hOk
    · rw [hEq] at hOk
      cases hOk
  · exact ofTokens_of_spells

/-- **A text compiles when the grammar derives its tokens, and to the tree of the
derivation**: its parts have the words of the tokens, no more and no less, in order and
each in its block. -/
theorem compileWith_eq_ok_iff_wordsOf (rules : RuleSet) (source : String) :
    ((∃ t, compileWith rules source = .ok t) ↔ Balanced (rules.tokens source)) ∧
      ∀ t, compileWith rules source = .ok t ↔
        Part.wordsOf t.parts = (rules.tokens source).map Token.word := by
  constructor
  · rw [balanced_iff_spells]
    constructor
    · rintro ⟨t, ht⟩
      exact ⟨t.parts, ofTokens_eq_ok_iff.mp ht⟩
    · rintro ⟨ps, hps⟩
      exact ⟨⟨ps⟩, ofTokens_of_spells hps⟩
  · intro t
    exact ofTokens_eq_ok_iff

end Template

end Stencil
