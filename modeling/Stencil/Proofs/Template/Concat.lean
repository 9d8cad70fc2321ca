import Stencil.Proofs.Template.Agree
import Stencil.Proofs.Template.Print
import Stencil.Template.Render

/-!
# Templates one after another

In the standard dialect two templates written one after the other put out what they put out one
after the other, unless the first has a `<%` that is no directive or ends with `<`: there the
second could make it one.

* `Token.shift`: a token as it stands after another text (`Form.Reading.shift`).
* `Form.Reading.unique`: the words of a text and their places are unique.
* `Token.Joins`: the tokens of two texts one after the other; where two literals meet they are
  one (`Form.Reading.exists_joins`).
* `Template.ofTokens_of_words_starts`: what becomes of tokens with the same words elsewhere.
* `Token.Joins.render`, `Token.Joins.error`: what becomes of the tokens of two texts.
* `Template.compile_append`: what becomes of two texts.
-/

namespace Stencil

open Text

/-! ## Tokens after another text -/

def Directive.shift (n : Nat) (d : Directive) : Directive :=
  { d with start := n + d.start, stop := n + d.stop }

def Token.shift (n : Nat) : Token → Token
  | literal text offset => literal text (n + offset)
  | directive d => directive (d.shift n)

theorem Token.word_shift (n : Nat) (t : Token) : (t.shift n).word = t.word := by
  cases t <;> rfl

theorem Token.start_shift (n : Nat) (t : Token) : (t.shift n).start = n + t.start := by
  cases t <;> rfl

namespace Form

variable {f : Form} {text more : List Char} {i n : Nat} {d : Directive} {ts us : List Token}

theorem Tells.shift (h : f.Tells i d) (n : Nat) : f.Tells (n + i) (d.shift n) where
  kind := h.kind
  raw := h.raw
  start := congrArg (n + ·) h.start
  stop := (congrArg (n + ·) h.stop).trans (Nat.add_assoc ..).symm
  path := h.path
  trimmedPath := h.trimmedPath
  trimmedItemName := h.trimmedItemName

theorem standsAt_append_iff :
    f.StandsAt (text ++ more) (byteLength text + i) ↔ f.StandsAt more i := by
  constructor
  · exact StandsAt.of_append
  · intro h
    simpa using h.append text []

theorem StandsAt.append_right (h : f.StandsAt text i) (more : List Char) :
    f.StandsAt (text ++ more) i := by
  simpa [byteLength] using h.append [] more

theorem StandsAt.isBoundary_stop (h : f.StandsAt text i) (hTells : f.Tells i d) :
    IsBoundary text d.stop := by
  obtain ⟨-, before, after, rfl, rfl⟩ := h
  exact ⟨before ++ f.raw, after, rfl, by rw [hTells.stop, byteLength_append]⟩

/-- **The second of two texts is read as it is alone**, but for the places of its tokens. -/
theorem Reading.shift (h : Reading more i ts) :
    Reading (text ++ more) (byteLength text + i) (ts.map (Token.shift (byteLength text))) := by
  induction h with
  | stop =>
    rw [← byteLength_append]
    exact .stop
  | directive hStands hTells _ ih =>
    exact .directive (standsAt_append_iff.mpr hStands) (hTells.shift _) ih
  | @literal i j ts hlt hUntil hNext _ ih =>
    rw [List.map_cons, Token.shift, ← slice_byteLength_add text more i j]
    refine .literal (by omega) (fun k hk hkj f hStands => ?_) ?_ ih
    · obtain ⟨l, rfl⟩ := Nat.exists_eq_add_of_le (Nat.le_of_add_right_le hk)
      exact hUntil l (by omega) (by omega) f (standsAt_append_iff.mp hStands)
    · rcases hNext with rfl | ⟨f, hStands⟩
      · exact .inl (byteLength_append ..).symm
      · exact .inr ⟨f, standsAt_append_iff.mpr hStands⟩

theorem not_lt_of_next {j j' : Nat} (hij : i < j)
    (hNext : j = byteLength text ∨ ∃ f : Form, f.StandsAt text j)
    (hUntil' : ∀ k, i ≤ k → k < j' → ∀ f : Form, ¬f.StandsAt text k)
    (hNext' : j' = byteLength text ∨ ∃ f : Form, f.StandsAt text j') : ¬j < j' := by
  intro hlt
  rcases hNext with rfl | ⟨f, hStands⟩
  · rcases hNext' with rfl | ⟨f, hStands⟩
    · omega
    · have := hStands.lt
      omega
  · exact hUntil' j (Nat.le_of_lt hij) hlt f hStands

/-- **A text is read in one way**: the words of its tokens and their places are unique. -/
theorem Reading.unique (h : Reading text i ts) (h' : Reading text i us) :
    ts.map Token.word = us.map Token.word ∧ ts.map Token.start = us.map Token.start := by
  induction h generalizing us with
  | stop =>
    rw [h'.eq_nil]
    exact ⟨rfl, rfl⟩
  | directive hStands hTells _ ih =>
    cases h' with
    | stop => exact absurd hStands.lt (Nat.lt_irrefl _)
    | directive hStands' hTells' hMore =>
      obtain rfl := hStands.eq hStands'
      rw [hTells'.stop, ← hTells.stop] at hMore
      obtain ⟨hWords, hStarts⟩ := ih hMore
      simp only [List.map_cons, Token.word, Token.start, hTells.word, hTells'.word, hTells.start,
        hTells'.start, hWords, hStarts, and_self]
    | literal hlt hUntil _ _ => exact absurd hStands (hUntil _ (Nat.le_refl _) hlt _)
  | @literal i j ts hlt hUntil hNext _ ih =>
    cases h' with
    | stop =>
      rcases hNext with rfl | ⟨f, hStands⟩
      · exact absurd hlt (Nat.lt_irrefl _)
      · have := hStands.lt
        omega
    | directive hStands' _ _ => exact absurd hStands' (hUntil _ (Nat.le_refl _) hlt _)
    | @literal _ j' us hlt' hUntil' hNext' hMore =>
      have hle := not_lt_of_next hlt hNext hUntil' hNext'
      have hge := not_lt_of_next hlt' hNext' hUntil hNext
      obtain rfl : j = j' := by omega
      obtain ⟨hWords, hStarts⟩ := ih hMore
      simp only [List.map_cons, hWords, hStarts, and_self]

end Form

/-! ## Tokens of two texts -/

/-- **The tokens of two texts one after the other**: a literal at the end of the first and one at
the start of the second are one. -/
inductive Token.Joins : List Token → List Token → List Token → Prop
  | append (us vs : List Token) : Joins us vs (us ++ vs)
  | merge (us vs : List Token) (a b : String) (i j : Nat) :
      Joins (us ++ [.literal a i]) (.literal b j :: vs) (us ++ .literal (a ++ b) i :: vs)

theorem Token.Joins.cons {us vs ws : List Token} (h : Joins us vs ws) (t : Token) :
    Joins (t :: us) vs (t :: ws) := by
  cases h with
  | append us vs => exact .append (t :: us) vs
  | merge us vs a b i j => exact .merge (t :: us) vs a b i j

namespace Form

variable {text more : List Char} {i j : Nat} {us vs : List Token}

theorem Reading.exists_joins_literal (hi : IsBoundary text i) (hlt : i < byteLength text)
    (hNone : ∀ k, i ≤ k → k < byteLength text → ∀ f : Form, ¬f.StandsAt (text ++ more) k)
    (h : Reading (text ++ more) (byteLength text) vs) :
    ∃ ws, Reading (text ++ more) i ws ∧
      Token.Joins [.literal (String.ofList (slice i (byteLength text) text)) i] vs ws := by
  have hj := isBoundary_byteLength text
  rw [← hi.slice_append hj (Nat.le_of_lt hlt) more]
  have hi' : IsBoundary (text ++ more) i := hi.append more
  have hj' : IsBoundary (text ++ more) (byteLength text) := hj.append more
  generalize byteLength text = n at *
  cases h with
  | stop => exact ⟨_, .literal hlt hNone (.inl rfl) .stop, .append [_] []⟩
  | directive hStands hTells hMore =>
    exact ⟨_, .literal hlt hNone (.inr ⟨_, hStands⟩) (.directive hStands hTells hMore),
      .append [_] _⟩
  | @literal _ j us hlt' hUntil hNext hMore =>
    have hNone' : ∀ k, i ≤ k → k < j → ∀ f : Form, ¬f.StandsAt (text ++ more) k := by
      intro k hk hkj
      by_cases hkn : k < n
      · exact hNone k hk hkn
      · exact hUntil k (by omega) hkj
    refine ⟨_, .literal (Nat.lt_trans hlt hlt') hNone' hNext hMore, ?_⟩
    rw [← hi'.slice_append_slice hj' (Nat.le_of_lt hlt) (Nat.le_of_lt hlt'), String.ofList_append]
    exact .merge [] _ _ _ _ _

/-- A literal of a text is plain with more text after the text, when it has no `<%` and the text
does not end with `<`. -/
theorem plain_of_next (hi : IsBoundary text i) (hj : IsBoundary text j) (hle : i ≤ j)
    (hFree : ¬['<', '%'] <:+: slice i j text) (hLast : ¬['<'] <:+ text)
    (hNext : j = byteLength text ∨ ∃ f : Form, f.StandsAt text j) :
    Plain (slice i j text) (dropBytes j text ++ more) := by
  refine plain_iff.mpr ⟨hFree, ?_⟩
  rintro ⟨hSuffix, hHead⟩
  rcases hNext with rfl | ⟨f, hStands⟩
  · -- the literal ends the text
    obtain ⟨before, hText, -⟩ := hi.exists_slice hj hle
    rw [dropBytes_byteLength, List.append_nil] at hText
    exact hLast (hSuffix.trans ⟨before, hText.symm⟩)
  · -- a form comes next, which begins with `<`
    obtain ⟨after, hDrop⟩ := hStands.exists_dropBytes
    obtain ⟨body, hRaw⟩ := f.exists_raw_eq
    rw [hDrop, hRaw] at hHead
    cases hHead

/-- **The tokens of a text stay as they are with another text after it**, but for the literals
that meet. -/
theorem Reading.exists_joins (h : Reading text i us) (hi : IsBoundary text i)
    (hFree : ∀ s k, .literal s k ∈ us → ¬['<', '%'] <:+: s.toList) (hLast : ¬['<'] <:+ text)
    (hMore : Reading (text ++ more) (byteLength text) vs) :
    ∃ ws, Reading (text ++ more) i ws ∧ Token.Joins us vs ws := by
  induction h with
  | stop => exact ⟨vs, hMore, .append [] vs⟩
  | directive hStands hTells _ ih =>
    have hRest := fun s k hMem => hFree s k (List.mem_cons_of_mem _ hMem)
    obtain ⟨ws, hReading, hJoins⟩ := ih (hStands.isBoundary_stop hTells) hRest
    exact ⟨_, .directive (hStands.append_right more) hTells hReading, hJoins.cons _⟩
  | @literal i j us hlt hUntil hNext hTokens ih =>
    have hle := Nat.le_of_lt hlt
    have hj : IsBoundary text j := by
      rcases hNext with rfl | ⟨f, hStands⟩
      · exact isBoundary_byteLength text
      · exact hStands.isBoundary
    have hHere := hFree _ _ List.mem_cons_self
    have hRest := fun s k hMem => hFree s k (List.mem_cons_of_mem _ hMem)
    rw [String.toList_ofList] at hHere
    have hNone : ∀ k, i ≤ k → k < j → ∀ f : Form, ¬f.StandsAt (text ++ more) k := by
      obtain ⟨before, hText, hBefore, hEnd⟩ := hi.exists_slice hj hle
      have hAll : text ++ more = before ++ slice i j text ++ (dropBytes j text ++ more) := by
        rw [← List.append_assoc, ← hText]
      intro k hk hkj
      exact (plain_of_next hi hj hle hHere hLast hNext).not_standsAt hAll (hBefore.symm ▸ hk)
        (hEnd.symm ▸ hkj)
    -- only a literal at the end of the text may go on in the other one
    rcases hNext with rfl | ⟨f, hStands⟩
    · rw [hTokens.eq_nil]
      exact exists_joins_literal hi hlt hNone hMore
    · obtain ⟨ws, hReading, hJoins⟩ := ih hj hRest
      refine ⟨_, .literal hlt hNone (.inr ⟨f, hStands.append_right more⟩) hReading, ?_⟩
      rw [hi.slice_append hj hle]
      exact hJoins.cons _

end Form

/-! ## What becomes of the tokens -/

section

variable {ts us vs ws : List Token} {t : Token} {p q : Template} {e : TemplateFault}

namespace Balanced

theorem of_concat_literal (hKind : t.kind? = none) (h : Balanced (ts ++ [t])) : Balanced ts := by
  obtain ⟨f, hReaches⟩ := h.viable.of_append.exists_reaches
  have hAll : Reaches (ts ++ [t]) f := hReaches.append (.literal hKind .nil)
  cases hReaches with
  | root hBalanced => exact hBalanced
  | loop => exact absurd h (hAll.not_balanced rfl)
  | thenBranch => exact absurd h (hAll.not_balanced rfl)
  | elseBranch => exact absurd h (hAll.not_balanced rfl)

theorem of_cons_literal (hKind : t.kind? = none) (h : Balanced (t :: ts)) : Balanced ts := by
  cases h with
  | literal _ hRest => exact hRest
  | escape hOther => cases hKind.symm.trans hOther
  | interpolate hOther => cases hKind.symm.trans hOther
  | loop hOther => cases hKind.symm.trans hOther
  | conditional hOther => cases hKind.symm.trans hOther
  | branches hOther => cases hKind.symm.trans hOther

end Balanced

namespace Template

theorem ofTokens_of_words_starts (hWords : ts.map Token.word = us.map Token.word)
    (hStarts : ts.map Token.start = us.map Token.start) : ofTokens us = ofTokens ts := by
  rw [ofTokens_eq_mapError id hWords hStarts.symm]
  cases ofTokens ts with
  | ok t => rfl
  | error e => exact congrArg Except.error e.withOffset_offset

/-- **After another text** tokens fail at places that are so much later. -/
theorem ofTokens_map_shift (n : Nat) (ts : List Token) :
    ofTokens (ts.map (Token.shift n)) =
      (ofTokens ts).mapError fun e => e.withOffset (n + e.offset) := by
  refine ofTokens_eq_mapError (n + ·) ?_ ?_
  · rw [List.map_map]
    exact List.map_congr_left fun t _ => (t.word_shift n).symm
  · rw [List.map_map]
    exact List.map_congr_left fun t _ => t.start_shift n

theorem parse_root_eq_error : Frame.root.parse ts = .error e ↔ ofTokens ts = .error e := by
  rw [ofTokens]
  cases Frame.root.parse ts with
  | ok p => simp only [Except.map, reduceCtorEq]
  | error e' => simp only [Except.map, Except.error.injEq]

/-- After the tokens of a template the fault is that of the tokens after them. -/
theorem ofTokens_append_error (h : Balanced ts) (hError : ofTokens us = .error e) :
    ofTokens (ts ++ us) = .error e :=
  parse_root_eq_error.mp (h.parse_error (parse_root_eq_error.mpr hError))

theorem ofTokens_of_cons_literal {s : String} {i : Nat}
    (h : ofTokens (.literal s i :: ts) = .error e) : ofTokens ts = .error e := by
  rw [← parse_root_eq_error, Frame.parse_cons] at h
  rw [← parse_root_eq_error]
  simp only [Token.word] at h
  cases hParse : Frame.root.parse ts with
  | ok p =>
    rw [hParse] at h
    cases h
  | error e' =>
    rw [hParse] at h
    cases h
    rfl

theorem render_append (ps qs : List Part) (c : Context) :
    render ⟨ps ++ qs⟩ c = render ⟨ps⟩ c ++ render ⟨qs⟩ c := by
  have hPieces (s : Scope) : Part.piecesOf (ps ++ qs) s =
      Part.piecesOf ps s ++ Part.piecesOf qs s := by
    induction ps with
    | nil => rfl
    | cons p ps ih => rw [List.cons_append, Part.piecesOf, ih, Part.piecesOf, List.append_assoc]
  rw [render, renderIn, hPieces, String.join_append]
  rfl

theorem render_nil (c : Context) : render ⟨[]⟩ c = "" := rfl

theorem render_literal (s : String) (ps : List Part) (c : Context) :
    render ⟨.literal s :: ps⟩ c = s ++ render ⟨ps⟩ c := by
  rw [render, renderIn, Part.piecesOf, Part.pieces, List.singleton_append, String.join_cons]
  rfl

end Template

namespace Token.Joins

open Template

/-- **Joined tokens put out** what the tokens before and after do. -/
theorem render (h : Joins us vs ws) (hp : ofTokens us = .ok p) (hq : ofTokens vs = .ok q) :
    ∃ r, ofTokens ws = .ok r ∧ ∀ c, r.render c = p.render c ++ q.render c := by
  have hp' := ofTokens_eq_ok_iff.mp hp
  have hq' := ofTokens_eq_ok_iff.mp hq
  cases h with
  | append us vs =>
    refine ⟨⟨p.parts ++ q.parts⟩, ofTokens_of_spells (hp'.append hq'), fun c => ?_⟩
    exact render_append p.parts q.parts c
  | merge us vs a b i j =>
    -- both literals are parts of their own in the two templates
    obtain ⟨ps, hps⟩ := (hp'.balanced.of_concat_literal rfl).exists_spells
    obtain ⟨qs, hqs⟩ := (hq'.balanced.of_cons_literal rfl).exists_spells
    have hLiteral (s : String) (k : Nat) : Spells [.literal s] [.literal s k] := rfl
    have hFirst := ofTokens_of_spells (hps.append (hLiteral a i))
    have hSecond := ofTokens_of_spells ((hLiteral b j).append hqs)
    obtain rfl := Except.ok.inj (hp.symm.trans hFirst)
    obtain rfl := Except.ok.inj (hq.symm.trans hSecond)
    refine ⟨⟨ps ++ ([.literal (a ++ b)] ++ qs)⟩,
      ofTokens_of_spells (hps.append ((hLiteral (a ++ b) i).append hqs)), fun c => ?_⟩
    simp only [render_append, render_literal, render_nil, List.singleton_append,
      String.append_assoc, String.empty_append]

/-- **Joined tokens fail** where the tokens after do, when those before are a template. -/
theorem error (h : Joins us vs ws) (hp : ofTokens us = .ok p) (he : ofTokens vs = .error e) :
    ofTokens ws = .error e := by
  have hBalanced := (ofTokens_eq_ok_iff.mp hp).balanced
  cases h with
  | append us vs => exact ofTokens_append_error hBalanced he
  | merge us vs a b i j =>
    have hBefore := hBalanced.of_concat_literal rfl
    have hAfter : Balanced (us ++ [.literal (a ++ b) i]) := hBefore.append (.literal rfl .nil)
    have hAll := ofTokens_append_error hAfter (ofTokens_of_cons_literal he)
    rwa [List.append_assoc, List.singleton_append] at hAll

end Token.Joins

end

/-! ## Texts -/

namespace Template

theorem compile_standard_eq_ok_iff {source : String} {t : Template} :
    compile .standard source = .ok t ↔ ofTokens (RuleSet.standard.tokens source) = .ok t := by
  rw [RuleSet.compile_standard, compileWith]
  cases ofTokens (RuleSet.standard.tokens source) with
  | ok u => simp only [Except.mapError, Except.ok.injEq]
  | error e => simp only [Except.mapError, reduceCtorEq]

theorem compile_standard_eq_error_iff {source : String} {e : TemplateFault} :
    compile .standard source = .error (.structural e) ↔
      ofTokens (RuleSet.standard.tokens source) = .error e := by
  rw [RuleSet.compile_standard, compileWith]
  cases ofTokens (RuleSet.standard.tokens source) with
  | ok u => simp only [Except.mapError, reduceCtorEq]
  | error e' => simp only [Except.mapError, Except.error.injEq, TemplateError.structural.injEq]

/-- The tokens of two texts one after the other compile as the joined tokens of the two. -/
theorem exists_joins_tokens (s t : String)
    (hFree : ∀ text offset, .literal text offset ∈ RuleSet.standard.tokens s →
      ¬['<', '%'] <:+: text.toList)
    (hLast : ¬['<'] <:+ s.toList) :
    ∃ ws, ofTokens (RuleSet.standard.tokens (s ++ t)) = ofTokens ws ∧
      Token.Joins (RuleSet.standard.tokens s)
        ((RuleSet.standard.tokens t).map (Token.shift (byteLength s.toList))) ws := by
  have hFirst := RuleSet.reading_tokens s
  have hSecond : Form.Reading (s.toList ++ t.toList) (byteLength s.toList)
      ((RuleSet.standard.tokens t).map (Token.shift (byteLength s.toList))) :=
    (RuleSet.reading_tokens t).shift
  have hBoth := RuleSet.reading_tokens (s ++ t)
  rw [String.toList_append] at hBoth
  obtain ⟨ws, hReading, hJoins⟩ :=
    hFirst.exists_joins (isBoundary_zero _) hFree hLast hSecond
  obtain ⟨hWords, hStarts⟩ := hReading.unique hBoth
  exact ⟨ws, ofTokens_of_words_starts hWords hStarts, hJoins⟩

/-- **Templates one after the other** put out what they put out one after the other; when the
second fails, both together fail with the same fault, told after the length of the first. -/
theorem compile_append (s t : String) (p : Template) (hs : compile .standard s = .ok p)
    (hFree : ∀ text offset, .literal text offset ∈ RuleSet.standard.tokens s →
      ¬['<', '%'] <:+: text.toList)
    (hLast : ¬['<'] <:+ s.toList) :
    (∀ q, compile .standard t = .ok q →
      ∃ r, compile .standard (s ++ t) = .ok r ∧ ∀ c, r.render c = p.render c ++ q.render c) ∧
    ∀ e, compile .standard t = .error (.structural e) →
      compile .standard (s ++ t) =
        .error (.structural (e.withOffset (byteLength s.toList + e.offset))) := by
  obtain ⟨ws, hTokens, hJoins⟩ := exists_joins_tokens s t hFree hLast
  have hp := compile_standard_eq_ok_iff.mp hs
  have hShift := ofTokens_map_shift (byteLength s.toList) (RuleSet.standard.tokens t)
  constructor
  · intro q hq
    rw [compile_standard_eq_ok_iff.mp hq] at hShift
    obtain ⟨r, hr, hRender⟩ := hJoins.render hp hShift
    exact ⟨r, compile_standard_eq_ok_iff.mpr (hTokens.trans hr), hRender⟩
  · intro e he
    rw [compile_standard_eq_error_iff.mp he] at hShift
    exact compile_standard_eq_error_iff.mpr (hTokens.trans (hJoins.error hp hShift))

/-- A conditional between literals, before a literal and before an alternative of its own. -/
theorem compile_append_conditional :
    let s := "é<%if(x)%>a<%end%>b"
    let t := "c<%= y %>"
    let t' := "c<%if(y)%><%end%><%else%>"
    let p : Template :=
      ⟨[.literal "é", .conditional (.parse "x") [.literal "a"] none, .literal "b"]⟩
    let q : Template := ⟨[.literal "c", .interpolate (.parse "y")]⟩
    (compile .standard s = .ok p ∧
      (∀ text offset, .literal text offset ∈ RuleSet.standard.tokens s →
        ¬['<', '%'] <:+: text.toList) ∧ ¬['<'] <:+ s.toList) ∧
    (compile .standard t = .ok q ∧
      ∃ r, compile .standard (s ++ t) = .ok r ∧ ∀ c, r.render c = p.render c ++ q.render c) ∧
    compile .standard t' = .error (.structural (.unexpectedElse 17)) ∧
      compile .standard (s ++ t') = .error (.structural (.unexpectedElse 37)) := by
  intro s t t' p q
  have hp : compile .standard s = .ok p :=
    compile_standard_eq_ok_iff.mpr (ofTokens_of_spells (by decide +kernel))
  have hq : compile .standard t = .ok q :=
    compile_standard_eq_ok_iff.mpr (ofTokens_of_spells (by decide +kernel))
  have he : compile .standard t' = .error (.structural (.unexpectedElse 17)) := by
    have hFault : (ofTokens (RuleSet.standard.tokens t')).casesOn some (fun _ => none) =
        some (TemplateFault.unexpectedElse 17) := by
      decide +kernel
    refine compile_standard_eq_error_iff.mpr ?_
    cases hTokens : ofTokens (RuleSet.standard.tokens t') with
    | ok r =>
      rw [hTokens] at hFault
      cases hFault
    | error e =>
      rw [hTokens] at hFault
      exact congrArg Except.error (Option.some.inj hFault)
  have hFree : ∀ text offset, .literal text offset ∈ RuleSet.standard.tokens s →
      ¬['<', '%'] <:+: text.toList := by
    have hAll : ∀ token ∈ RuleSet.standard.tokens s, token.directive? = none →
        ¬['<', '%'] <:+: token.text.toList := by
      decide +kernel
    exact fun text offset hMem => hAll _ hMem rfl
  have hLast : ¬['<'] <:+ s.toList := by decide +kernel
  have hLength : byteLength s.toList = 20 := by decide +kernel
  obtain ⟨hOk, -⟩ := compile_append s t p hp hFree hLast
  obtain ⟨-, hError⟩ := compile_append s t' p hp hFree hLast
  have hBoth := hError _ he
  rw [hLength] at hBoth
  exact ⟨⟨hp, hFree, hLast⟩, ⟨hq, hOk q hq⟩, he, hBoth⟩

end Template

end Stencil
