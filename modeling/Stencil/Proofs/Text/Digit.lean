import Mathlib.Algebra.Group.Nat.Defs
import Stencil.Text.Digit

/-!
# Numbers in decimal digits

* `Leads`: digits that are all there is of a number, without a zero in front.
* `decimalValue_cons`, `decimalValue_append`, `decimalValue_toDigits`: the number that digits
  spell.
* `decimalValue_lt`, `Leads.le_decimalValue`: it is as long as its digits.
* `Leads.toDigits`: a number has one text only.
-/

namespace Stencil.Text

/-- Digits that are all there is of a number: one at least, and no zero in front. -/
structure Leads (ds : List Char) : Prop where
  isDigit : ∀ d ∈ ds, d.isDigit = true
  ne_nil : ds ≠ []
  head : ds.head? ≠ some '0'

theorem decimalValue_eq (ds : List Char) : decimalValue ds = Nat.ofDigitChars 10 ds 0 := by
  rw [decimalValue, numberOfDigits, List.foldl_map]
  rfl

theorem decimalValue_nil : decimalValue [] = 0 := rfl

theorem decimalValue_append (as bs : List Char) :
    decimalValue (as ++ bs) = decimalValue as * 10 ^ bs.length + decimalValue bs := by
  rw [decimalValue_eq, decimalValue_eq, decimalValue_eq, Nat.ofDigitChars_append,
    Nat.ofDigitChars_eq_ofDigitChars_zero, Nat.mul_comm]

theorem decimalValue_cons (d : Char) (ds : List Char) :
    decimalValue (d :: ds) = (d.toNat - 48) * 10 ^ ds.length + decimalValue ds := by
  have hOne : decimalValue [d] = d.toNat - 48 := by
    show 10 * 0 + (d.toNat - 48) = d.toNat - 48
    omega
  rw [← hOne, ← decimalValue_append]
  rfl

theorem decimalValue_replicate_zero (n : Nat) : decimalValue (List.replicate n '0') = 0 := by
  rw [decimalValue_eq, Nat.ofDigitChars_replicate_zero, Nat.mul_zero]

theorem decimalValue_toDigits (n : Nat) : decimalValue (Nat.toDigits 10 n) = n := by
  rw [decimalValue_eq, Nat.ofDigitChars_ten_toDigits]

theorem isDigit_of_mem_toDigits {n : Nat} : ∀ d ∈ Nat.toDigits 10 n, d.isDigit = true := by
  intro d hd
  exact Nat.isDigit_of_mem_toDigits (by decide) (by decide) hd

theorem isDigit_of_mem_replicate {n : Nat} : ∀ d ∈ List.replicate n '0', d.isDigit = true := by
  intro d hd
  rw [List.eq_of_mem_replicate hd]
  rfl

theorem digitChar_of_isDigit {d : Char} (h : d.isDigit = true) :
    d.toNat - 48 < 10 ∧ (d.toNat - 48).digitChar = d := by
  rw [Char.isDigit_iff_toNat] at h
  have hLow : 48 ≤ d.toNat := h.1
  have hHigh : d.toNat ≤ 57 := h.2
  refine ⟨by omega, Char.toNat_inj.mp ?_⟩
  rw [Nat.toNat_digitChar_of_lt_ten (by omega)]
  omega

theorem pos_of_ne_zero {d : Char} (h : d.isDigit = true) (hd : d ≠ '0') : 0 < d.toNat - 48 := by
  apply Nat.pos_of_ne_zero
  intro h0
  apply hd
  rw [← (digitChar_of_isDigit h).2, h0]
  rfl

theorem decimalValue_lt {ds : List Char} (h : ∀ d ∈ ds, d.isDigit = true) :
    decimalValue ds < 10 ^ ds.length := by
  induction ds with
  | nil => decide
  | cons d ds ih =>
    have hd := (digitChar_of_isDigit (h d List.mem_cons_self)).1
    have hds := ih fun c hc => h c (List.mem_cons_of_mem d hc)
    have hle := Nat.mul_le_mul_right (10 ^ ds.length) (Nat.le_of_lt_succ hd)
    rw [decimalValue_cons, List.length_cons, Nat.pow_succ]
    omega

theorem toDigits_append {n : Nat} (hn : 0 < n) {ds : List Char} (h : ∀ d ∈ ds, d.isDigit = true) :
    Nat.toDigits 10 n ++ ds = Nat.toDigits 10 (n * 10 ^ ds.length + decimalValue ds) := by
  induction ds generalizing n with
  | nil => rw [List.append_nil, List.length_nil, Nat.pow_zero, Nat.mul_one, decimalValue_nil]; rfl
  | cons d ds ih =>
    obtain ⟨hd, hChar⟩ := digitChar_of_isDigit (h d List.mem_cons_self)
    have hds : ∀ c ∈ ds, c.isDigit = true := fun c hc => h c (List.mem_cons_of_mem d hc)
    have hNext : Nat.toDigits 10 n ++ [d] = Nat.toDigits 10 (10 * n + (d.toNat - 48)) := by
      rw [← Nat.toDigits_append_toDigits (by decide) hn hd, Nat.toDigits_of_lt_base hd, hChar]
    have hSum : (10 * n + (d.toNat - 48)) * 10 ^ ds.length + decimalValue ds
        = n * 10 ^ (d :: ds).length + decimalValue (d :: ds) := by
      rw [decimalValue_cons, List.length_cons, Nat.pow_succ', Nat.add_mul, Nat.mul_comm 10 n,
        Nat.mul_assoc, Nat.add_assoc]
    rw [List.append_cons, hNext, ih (by omega) hds, hSum]

variable {ds : List Char}

theorem Leads.append (h : Leads ds) {cs : List Char} (hcs : ∀ c ∈ cs, c.isDigit = true) :
    Leads (ds ++ cs) := by
  refine ⟨fun d hd => ?_, List.append_ne_nil_of_left_ne_nil h.ne_nil _, ?_⟩
  · rcases List.mem_append.mp hd with hd | hd
    · exact h.isDigit d hd
    · exact hcs d hd
  · cases ds with
    | nil => exact absurd rfl h.ne_nil
    | cons d ds => exact h.head

theorem Leads.take (h : Leads ds) {n : Nat} (hn : 0 < n) : Leads (ds.take n) := by
  refine ⟨fun d hd => h.isDigit d (List.mem_of_mem_take hd), ?_, ?_⟩
  · intro hNil
    rcases List.take_eq_nil_iff.mp hNil with h0 | h0
    · omega
    · exact h.ne_nil h0
  · rw [List.head?_take, if_neg (by omega)]
    exact h.head

/-- A number has one text without a zero in front. -/
theorem Leads.toDigits (h : Leads ds) : Nat.toDigits 10 (decimalValue ds) = ds := by
  cases ds with
  | nil => exact absurd rfl h.ne_nil
  | cons d ds =>
    obtain ⟨hd, hChar⟩ := digitChar_of_isDigit (h.isDigit d List.mem_cons_self)
    have hPos := pos_of_ne_zero (h.isDigit d List.mem_cons_self) fun hd => h.head (hd ▸ rfl)
    have hTail := toDigits_append hPos fun c hc => h.isDigit c (List.mem_cons_of_mem d hc)
    rw [Nat.toDigits_of_lt_base hd, hChar] at hTail
    rw [decimalValue_cons, ← hTail]
    rfl

/-- Digits without a zero in front spell a number that is as long as they are. -/
theorem Leads.le_decimalValue (h : Leads ds) : 10 ^ (ds.length - 1) ≤ decimalValue ds := by
  cases ds with
  | nil => exact absurd rfl h.ne_nil
  | cons d ds =>
    have hPos := pos_of_ne_zero (h.isDigit d List.mem_cons_self) fun hd => h.head (hd ▸ rfl)
    rw [decimalValue_cons]
    exact Nat.le_add_right_of_le (Nat.le_mul_of_pos_left _ hPos)

theorem leads_toDigits {n : Nat} (hn : n ≠ 0) : Leads (Nat.toDigits 10 n) := by
  refine ⟨isDigit_of_mem_toDigits, Nat.toDigits_ne_nil, ?_⟩
  intro hHead
  obtain ⟨ds, hds⟩ := List.head?_eq_some_iff.mp hHead
  have hDigits : ∀ d ∈ ds, d.isDigit = true := fun d hd =>
    isDigit_of_mem_toDigits d (hds ▸ List.mem_cons_of_mem _ hd)
  have hValue : decimalValue ds = n := by
    have hAll := decimalValue_toDigits n
    rwa [hds, decimalValue_cons, show ('0' : Char).toNat - 48 = 0 from rfl, Nat.zero_mul,
      Nat.zero_add] at hAll
  -- without the zero the number has a shorter text
  have hlt := decimalValue_lt hDigits
  rw [hValue] at hlt
  by_cases hNil : ds.length = 0
  · rw [hNil] at hlt
    omega
  · have hle := (Nat.length_toDigits_le_iff (by decide) (Nat.pos_of_ne_zero hNil)).mpr hlt
    rw [hds, List.length_cons] at hle
    omega

end Stencil.Text
