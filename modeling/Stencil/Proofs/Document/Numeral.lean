import Mathlib.Algebra.Order.Field.Rat
import Mathlib.Algebra.Order.Field.Power
import Mathlib.Data.List.TakeDrop
import Stencil.Document.Json
import Stencil.Proofs.Text.Digit

/-!
# Numerals in writing

* `Numeral.value`: the number that a numeral stands for.
* `Numeral.written`: a numeral in writing, with the sign of its exponent always written out.
* `Numeral.WellFormed`: digits wherever they have to be, and no zero in front.
* `Json.readNumber_written`: a numeral in writing is read as that numeral.
-/

namespace Stencil

open Text

namespace Numeral

def value (n : Numeral) : ℚ :=
  (if n.negative then -1 else 1) *
    (decimalValue (n.whole ++ n.fraction.getD []) *
      10 ^ (n.exponentValue - (n.fraction.getD []).length))

theorem abs_sign_mul (negative : Bool) {x : ℚ} (hx : 0 ≤ x) :
    |(if negative then -1 else 1) * x| = x := by
  rw [abs_mul, abs_of_nonneg hx]
  cases negative
  · rw [if_neg Bool.false_ne_true, abs_one, one_mul]
  · rw [if_pos rfl, abs_neg, abs_one, one_mul]

def fractionText : Option (List Char) → List Char
  | none => []
  | some digits => '.' :: digits

def exponentText : Option (Bool × List Char) → List Char
  | none => []
  | some (negative, digits) => 'e' :: (if negative then '-' else '+') :: digits

def written (n : Numeral) : List Char :=
  (if n.negative then ['-'] else []) ++
    (n.whole ++ (fractionText n.fraction ++ exponentText n.exponent))

/-- There are digits wherever they have to be, and a zero in front stands alone. -/
structure WellFormed (n : Numeral) : Prop where
  whole : n.whole = ['0'] ∨ Leads n.whole
  fraction : ∀ digits, n.fraction = some digits → digits ≠ [] ∧ ∀ d ∈ digits, d.isDigit = true
  exponent : ∀ negative digits, n.exponent = some (negative, digits) →
    digits ≠ [] ∧ ∀ d ∈ digits, d.isDigit = true

end Numeral

/-! ## Reading -/

namespace Json

open Numeral

def NoDigit (cs : List Char) : Prop := ∀ c ∈ cs.head?, c.isDigit = false

theorem noDigit_nil : NoDigit [] := by
  intro c hc
  cases hc

theorem noDigit_cons {c : Char} {cs : List Char} (h : c.isDigit = false) : NoDigit (c :: cs) := by
  intro c' hc
  cases hc
  exact h

theorem noDigit_exponentText (e : Option (Bool × List Char)) : NoDigit (exponentText e) := by
  cases e with
  | none => exact noDigit_nil
  | some e => exact noDigit_cons rfl

theorem noDigit_fractionText (f : Option (List Char)) (e : Option (Bool × List Char)) :
    NoDigit (fractionText f ++ exponentText e) := by
  cases f with
  | none => exact noDigit_exponentText e
  | some ds => exact noDigit_cons rfl

theorem readDigits_append {ds rest : List Char} (hds : ds ≠ []) (h : ∀ d ∈ ds, d.isDigit = true)
    (hRest : NoDigit rest) : readDigits (ds ++ rest) = .ok (ds, rest) := by
  have hSpan : (ds ++ rest).span Char.isDigit = (ds, rest) := by
    rw [List.span_eq_takeWhile_dropWhile, List.takeWhile_append_of_pos h,
      List.dropWhile_append_of_pos h]
    cases rest with
    | nil => rw [List.takeWhile_nil, List.dropWhile_nil, List.append_nil]
    | cons c rest =>
      have hc : c.isDigit = false := hRest c rfl
      rw [List.takeWhile_cons_of_neg (by rw [hc]; decide), List.append_nil,
        List.dropWhile_cons_of_neg (by rw [hc]; decide)]
  rw [readDigits, hSpan]
  cases ds with
  | nil => exact absurd rfl hds
  | cons d ds => rfl

theorem readDigits_of_isDigit {ds : List Char} (hds : ds ≠ []) (h : ∀ d ∈ ds, d.isDigit = true) :
    readDigits ds = .ok (ds, []) := by
  have := readDigits_append hds h noDigit_nil
  rwa [List.append_nil] at this

theorem readWhole_append {ds rest : List Char} (hds : ds = ['0'] ∨ Leads ds)
    (hRest : NoDigit rest) :
    readWhole (ds ++ rest) = .ok (ds, rest) := by
  rcases hds with rfl | hds
  · cases rest with
    | nil => rfl
    | cons c rest =>
      have hc : c.isDigit = false := hRest c rfl
      show (if c.isDigit then _ else _) = _
      rw [hc]
      rfl
  · rw [readWhole.eq_def]
    split
    · -- a zero in front would be the first digit
      rename_i hEq
      cases ds with
      | nil => exact absurd rfl hds.ne_nil
      | cons d ds => exact absurd (congrArg some (List.cons.inj hEq).1) hds.head
    · exact readDigits_append hds.ne_nil hds.isDigit hRest

theorem readFraction_append {f : Option (List Char)} {rest : List Char}
    (hf : ∀ ds, f = some ds → ds ≠ [] ∧ ∀ d ∈ ds, d.isDigit = true) (hRest : NoDigit rest)
    (hPoint : ∀ cs, rest ≠ '.' :: cs) : readFraction (fractionText f ++ rest) = .ok (f, rest) := by
  cases f with
  | none =>
    show readFraction rest = _
    rw [readFraction.eq_def]
    split
    · exact absurd rfl (hPoint _)
    · rfl
  | some ds =>
    obtain ⟨hne, hDigits⟩ := hf ds rfl
    show (readDigits (ds ++ rest)).map _ = _
    rw [readDigits_append hne hDigits hRest]
    rfl

theorem readExponent_exponentText {e : Option (Bool × List Char)}
    (he : ∀ negative ds, e = some (negative, ds) → ds ≠ [] ∧ ∀ d ∈ ds, d.isDigit = true) :
    readExponent (exponentText e) = .ok (e, []) := by
  cases e with
  | none => rfl
  | some e =>
    obtain ⟨negative, ds⟩ := e
    obtain ⟨hne, hDigits⟩ := he negative ds rfl
    cases negative
    · show (readDigits ds).map _ = _
      rw [readDigits_of_isDigit hne hDigits]
      rfl
    · show (readDigits ds).map _ = _
      rw [readDigits_of_isDigit hne hDigits]
      rfl

theorem exponentText_ne_point (e : Option (Bool × List Char)) (cs : List Char) :
    exponentText e ≠ '.' :: cs := by
  intro h
  cases e with
  | none => cases h
  | some e => cases (List.cons.inj h).1

theorem ne_minus_of_whole {ds rest : List Char} (hds : ds = ['0'] ∨ Leads ds) (cs : List Char) :
    ds ++ rest ≠ '-' :: cs := by
  have hDigits : ∀ d ∈ ds, d.isDigit = true := by
    rcases hds with rfl | hds
    · exact isDigit_of_mem_replicate (n := 1)
    · exact hds.isDigit
  intro h
  cases ds with
  | nil =>
    rcases hds with hds | hds
    · cases hds
    · exact hds.ne_nil rfl
  | cons d ds =>
    have hd := hDigits d List.mem_cons_self
    rw [(List.cons.inj h).1] at hd
    cases hd

/-- **A numeral in writing is read as that numeral.** -/
theorem readNumber_written {n : Numeral} (h : n.WellFormed) :
    readNumber n.written = .ok (n, []) := by
  obtain ⟨negative, whole, fraction, exponent⟩ := n
  have hWhole : readWhole (whole ++ (fractionText fraction ++ exponentText exponent))
      = .ok (whole, fractionText fraction ++ exponentText exponent) :=
    readWhole_append h.whole (noDigit_fractionText fraction exponent)
  have hFraction : readFraction (fractionText fraction ++ exponentText exponent)
      = .ok (fraction, exponentText exponent) :=
    readFraction_append h.fraction (noDigit_exponentText exponent) (exponentText_ne_point exponent)
  have hExponent : readExponent (exponentText exponent) = .ok (exponent, []) :=
    readExponent_exponentText h.exponent
  cases negative
  · show readNumber (whole ++ (fractionText fraction ++ exponentText exponent)) = _
    rw [readNumber, hWhole]
    · show (readFraction _).bind _ = _
      rw [hFraction]
      show (readExponent _).map _ = _
      rw [hExponent]
      rfl
    · exact ne_minus_of_whole h.whole
  · show (readWhole (whole ++ (fractionText fraction ++ exponentText exponent))).bind _ = _
    rw [hWhole]
    show (readFraction _).bind _ = _
    rw [hFraction]
    show (readExponent _).map _ = _
    rw [hExponent]
    rfl

end Json

end Stencil
