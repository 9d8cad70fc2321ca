import Stencil.Proofs.Template.Grammar

/-!
# Tokens that may go on

Tokens are viable when some continuation makes them balanced.  They are those that lead
from the start of a template into one of its blocks.

* `Viable`: tokens that some continuation makes balanced.
* `Reaches`: tokens that lead into a block; terminators lead out again
  (`Reaches.viable`).
* `Rejects`: a token that may not stand in a block.  Any other token leads on
  (`Reaches.step`), and so do tokens up to the first one that may not stand where it does
  (`Reaches.run`).
-/

namespace Stencil

/-- Whether some continuation of tokens is balanced. -/
def Viable (ts : List Token) : Prop := ∃ more, Balanced (ts ++ more)

/-! ## Balanced tokens -/

namespace Balanced

theorem append {ts us : List Token} (h₁ : Balanced ts) (h₂ : Balanced us) :
    Balanced (ts ++ us) := by
  obtain ⟨ps, hps⟩ := h₁.exists_spells
  obtain ⟨qs, hqs⟩ := h₂.exists_spells
  exact (hps.append hqs).balanced

end Balanced

theorem Viable.of_append {ts us : List Token} (h : Viable (ts ++ us)) : Viable ts := by
  obtain ⟨more, hMore⟩ := h
  refine ⟨us ++ more, ?_⟩
  rwa [← List.append_assoc]

theorem Balanced.viable {ts : List Token} (h : Balanced ts) : Viable ts := by
  refine ⟨[], ?_⟩
  rwa [List.append_nil]

/-! ## Blocks that are open -/

/-- **Tokens that lead into a block**, the innermost one that they leave open: after those
that lead to it, the token that opens it and balanced ones. -/
inductive Reaches : List Token → Frame → Prop
  | root {ts : List Token} : Balanced ts → Reaches ts .root
  | loop {ts inner : List Token} {f : Frame} {t : Token} : Reaches ts f →
      t.kind? = some .loop → Balanced inner → Reaches (ts ++ t :: inner) (.loop t.start)
  | thenBranch {ts inner : List Token} {f : Frame} {t : Token} : Reaches ts f →
      t.kind? = some .conditional → Balanced inner →
      Reaches (ts ++ t :: inner) (.thenBranch t.start)
  | elseBranch {ts first second : List Token} {f : Frame} {t a : Token} : Reaches ts f →
      t.kind? = some .conditional → Balanced first → a.kind? = some .alternative →
      Balanced second → Reaches (ts ++ t :: (first ++ a :: second)) (.elseBranch t.start)

namespace Reaches

variable {ts us : List Token} {f : Frame}

theorem init : Reaches [] .root := .root .nil

theorem append (h : Reaches ts f) (hus : Balanced us) : Reaches (ts ++ us) f := by
  cases h with
  | root hts => exact .root (hts.append hus)
  | loop hBefore hOpen hInner =>
    rw [List.append_assoc, List.cons_append]
    exact .loop hBefore hOpen (hInner.append hus)
  | thenBranch hBefore hOpen hInner =>
    rw [List.append_assoc, List.cons_append]
    exact .thenBranch hBefore hOpen (hInner.append hus)
  | elseBranch hBefore hOpen hFirst hDivide hSecond =>
    rw [List.append_assoc, List.cons_append, List.append_assoc, List.cons_append]
    exact .elseBranch hBefore hOpen hFirst hDivide (hSecond.append hus)

/-- The end of a block leads back into the block around it. -/
theorem close {e : Token} (h : Reaches ts f) (hRoot : f ≠ .root)
    (hClose : e.kind? = some .terminate) : ∃ g, Reaches (ts ++ [e]) g := by
  cases h with
  | root => exact absurd rfl hRoot
  | @loop ts inner g t hBefore hOpen hInner =>
    refine ⟨g, ?_⟩
    rw [List.append_assoc]
    exact hBefore.append (.loop hOpen hInner hClose .nil)
  | @thenBranch ts inner g t hBefore hOpen hInner =>
    refine ⟨g, ?_⟩
    rw [List.append_assoc]
    exact hBefore.append (.conditional hOpen hInner hClose .nil)
  | @elseBranch ts first second g t a hBefore hOpen hFirst hDivide hSecond =>
    refine ⟨g, ?_⟩
    rw [List.append_assoc, List.cons_append, List.append_assoc, List.cons_append]
    exact hBefore.append (.branches hOpen hFirst hDivide hSecond hClose .nil)

/-- **Tokens that lead into a block may go on**, after balanced ones too: a terminator for
each open block makes them balanced. -/
theorem exists_balanced (h : Reaches ts f) (hus : Balanced us) :
    ∃ more, Balanced (ts ++ us ++ more) := by
  obtain ⟨e, hClose⟩ : ∃ e : Token, e.kind? = some .terminate :=
    ⟨.directive ⟨.terminate, none, none, "", 0, 0⟩, rfl⟩
  -- closing the innermost block turns the tokens from its opening on into balanced ones
  induction h generalizing us with
  | root hts => exact (hts.append hus).viable
  | @loop ts inner f t _ hOpen hInner ih =>
    obtain ⟨more, hMore⟩ := ih (.loop hOpen (hInner.append hus) hClose .nil)
    refine ⟨e :: more, ?_⟩
    simpa only [List.append_assoc, List.cons_append, List.nil_append] using hMore
  | @thenBranch ts inner f t _ hOpen hInner ih =>
    obtain ⟨more, hMore⟩ := ih (.conditional hOpen (hInner.append hus) hClose .nil)
    refine ⟨e :: more, ?_⟩
    simpa only [List.append_assoc, List.cons_append, List.nil_append] using hMore
  | @elseBranch ts first second f t a _ hOpen hFirst hDivide hSecond ih =>
    obtain ⟨more, hMore⟩ :=
      ih (.branches hOpen hFirst hDivide (hSecond.append hus) hClose .nil)
    refine ⟨e :: more, ?_⟩
    simpa only [List.append_assoc, List.cons_append, List.nil_append] using hMore

theorem viable (h : Reaches ts f) : Viable ts := by
  obtain ⟨more, hMore⟩ := h.exists_balanced .nil
  rw [List.append_nil] at hMore
  exact ⟨more, hMore⟩

end Reaches

/-! ## Tokens that may not stand in a block -/

/-- **A token that may not stand in a block**, with its fault: a terminator outside of all
blocks, or an alternative outside of first branches. -/
inductive Rejects : Frame → Token → TemplateFault → Prop
  | terminator {t : Token} : t.kind? = some .terminate →
      Rejects .root t (.unexpectedEnd t.start)
  | alternative {f : Frame} {t : Token} : t.kind? = some .alternative →
      (∀ opened, f ≠ .thenBranch opened) → Rejects f t (.unexpectedElse t.start)

namespace Reaches

variable {ts : List Token} {f : Frame}

theorem divide {a : Token} {opened : Nat} (h : Reaches ts (.thenBranch opened))
    (hDivide : a.kind? = some .alternative) : Reaches (ts ++ [a]) (.elseBranch opened) := by
  cases h with
  | thenBranch hBefore hOpen hInner =>
    rw [List.append_assoc, List.cons_append]
    exact .elseBranch hBefore hOpen hInner hDivide .nil

/-- **One token more** leads into some block, unless it may not stand where it does. -/
theorem step (h : Reaches ts f) (t : Token) :
    (∃ g, Reaches (ts ++ [t]) g) ∨ ∃ e, Rejects f t e := by
  rcases hKind : t.kind? with _ | kind
  · exact .inl ⟨f, h.append (.literal hKind .nil)⟩
  cases kind with
  | escape => exact .inl ⟨f, h.append (.escape hKind .nil)⟩
  | interpolate => exact .inl ⟨f, h.append (.interpolate hKind .nil)⟩
  | loop => exact .inl ⟨_, .loop h hKind .nil⟩
  | conditional => exact .inl ⟨_, .thenBranch h hKind .nil⟩
  | alternative =>
    cases f with
    | thenBranch opened => exact .inl ⟨_, h.divide hKind⟩
    | root => exact .inr ⟨_, .alternative hKind (fun _ => Frame.noConfusion)⟩
    | loop => exact .inr ⟨_, .alternative hKind (fun _ => Frame.noConfusion)⟩
    | elseBranch => exact .inr ⟨_, .alternative hKind (fun _ => Frame.noConfusion)⟩
  | terminate =>
    by_cases hRoot : f = .root
    · subst hRoot
      exact .inr ⟨_, .terminator hKind⟩
    · exact .inl (h.close hRoot hKind)

/-- **Tokens one after another** lead into some block, unless one of them may not stand
where it does. -/
theorem run (h : Reaches ts f) (us : List Token) :
    (∃ g, Reaches (ts ++ us) g) ∨
      ∃ pre t post g e, ts ++ us = pre ++ t :: post ∧ Reaches pre g ∧ Rejects g t e := by
  induction us generalizing ts f with
  | nil =>
    rw [List.append_nil]
    exact .inl ⟨f, h⟩
  | cons u us ih =>
    rcases h.step u with ⟨g, hNext⟩ | ⟨e, hRejects⟩
    · have hRest := ih hNext
      rwa [List.append_assoc, List.singleton_append] at hRest
    · exact .inr ⟨ts, u, us, f, e, rfl, h, hRejects⟩

end Reaches

end Stencil
