import Stencil.Proofs.Document.Numeral
import Stencil.Proofs.Number.Shortest

/-!
# Reading numerals exactly

* `Number.ofDecimal_eq`: the number of a decimal is the one that the decimal rounds to, also where
  its power of ten is not computed.
* `Numeral.exact_eq`: a numeral is read as the number nearest to it.
-/

namespace Stencil

open Text

namespace Magnitude

variable {m : Magnitude}

theorem isNearest_zero {x : ℚ} (hx : 0 ≤ x) (hlt : x < 10 ^ (-330 : Int)) : zero.IsNearest x := by
  have hNat : 2 * unitsPerOne ≤ 10 ^ 330 := by decide +kernel
  have hle : 2 * unit ≤ 10 ^ (330 : Int) := by
    rw [unit]
    exact_mod_cast hNat
  have hHalf : 2 * (x * unit) < 1 := by
    calc 2 * (x * unit) = x * (2 * unit) := by ring
      _ < 10 ^ (-330 : Int) * (2 * unit) :=
          mul_lt_mul_of_pos_right hlt (mul_pos two_pos unit_pos)
      _ ≤ 10 ^ (-330 : Int) * 10 ^ (330 : Int) :=
          mul_le_mul_of_nonneg_left hle (zpow_nonneg (by norm_num) _)
      _ = 1 := by rw [← zpow_add₀ (by norm_num)]; rfl
  have hLow : zero.low4 = 0 := by decide
  have hHigh : zero.high4 = 2 := by decide
  refine Encloses.isNearest ⟨?_, ?_, fun hOdd => absurd rfl hOdd⟩
  · rw [hLow, Nat.cast_zero]
    exact mul_nonneg (by norm_num) (mul_nonneg hx unit_pos.le)
  · rw [hHigh, Nat.cast_ofNat]
    linarith

theorem tooLarge_lt : tooLarge < 10 ^ (310 : Int) := by
  have hNat : 2 ^ 54 * 2 ^ 970 < 10 ^ 310 := by decide +kernel
  have hCast : ((2 ^ 54 * 2 ^ 970 : Nat) : ℚ) < (10 ^ 310 : Nat) := Nat.cast_lt.mpr hNat
  rw [Nat.cast_mul, Nat.cast_pow, Nat.cast_pow, Nat.cast_pow, Nat.cast_ofNat,
    Nat.cast_ofNat] at hCast
  refine lt_of_le_of_lt ?_ hCast
  exact mul_le_mul_of_nonneg_right (by norm_num) (pow_nonneg (by norm_num) _)

theorem decimal_bounds {d : Nat} (hd : d ≠ 0) (k : Int) :
    (10 : ℚ) ^ ((decimalLength d : Int) - 1 + k) ≤ d * 10 ^ k ∧
      d * 10 ^ k < (10 : ℚ) ^ ((decimalLength d : Int) + k) := by
  obtain ⟨l, hl, hle, hlt⟩ := decimalLength_spec hd
  have hStep : (0 : ℚ) < 10 ^ k := zpow_pos (by norm_num) k
  have hle' : ((10 ^ l : Nat) : ℚ) ≤ d := Nat.cast_le.mpr hle
  have hlt' : (d : ℚ) < (10 ^ (l + 1) : Nat) := Nat.cast_lt.mpr hlt
  rw [Nat.cast_pow, Nat.cast_ofNat, ← zpow_natCast] at hle' hlt'
  rw [hl, zpow_add₀ (by norm_num), zpow_add₀ (by norm_num), mul_le_mul_iff_left₀ hStep,
    mul_lt_mul_iff_left₀ hStep, show ((l + 1 : Nat) : Int) - 1 = (l : Int) by omega]
  exact ⟨hle', hlt'⟩

end Magnitude

/-! ## Decimals -/

namespace Number

theorem ofRatio_eq (negative : Bool) {num den : Nat} {m : Magnitude} (hDen : 0 < den)
    (h : m.IsNearest (num / den)) : ofRatio negative num den = finite negative m := by
  rw [ofRatio, (Magnitude.round?_eq_some_iff hDen).mpr h]
  rfl

/-- **The number of a decimal is the one that it rounds to.** -/
theorem ofDecimal_eq (negative : Bool) {d : Nat} {k : Int} {m : Magnitude}
    (h : m.IsNearest (d * 10 ^ k)) : ofDecimal negative d k = finite negative m := by
  rw [ofDecimal]
  split
  · rename_i hSmall
    have hZero : Magnitude.zero.IsNearest (d * 10 ^ k) := by
      by_cases hd : d = 0
      · rw [hd, Nat.cast_zero, zero_mul, ← Magnitude.value_eq_zero (m := Magnitude.zero) rfl]
        exact Magnitude.isNearest_value _
      · -- too small for the power to be computed
        apply Magnitude.isNearest_zero (Magnitude.decimal_nonneg d k)
        apply (Magnitude.decimal_bounds hd k).2.trans_le
        apply zpow_le_zpow_right₀ (by norm_num)
        exact (hSmall.resolve_left hd).le
    rw [hZero.unique h]
  · rename_i hSmall
    rw [not_or] at hSmall
    split
    · -- too large for it
      rename_i hLarge
      exfalso
      have hle : (10 : ℚ) ^ (310 : Int) ≤ d * 10 ^ k := by
        refine le_trans ?_ (Magnitude.decimal_bounds hSmall.1 k).1
        apply zpow_le_zpow_right₀ (by norm_num)
        rw [decimalLength]
        omega
      exact lt_irrefl _ (h.lt.trans (Magnitude.tooLarge_lt.trans_le hle))
    · split
      · rename_i hk
        obtain ⟨n, rfl⟩ : ∃ n : Nat, k = -n := ⟨(-k).toNat, by omega⟩
        rw [neg_neg, Int.toNat_natCast, Nat.pow_eq]
        apply ofRatio_eq negative (Nat.pow_pos (by decide))
        rwa [Nat.cast_pow, Nat.cast_ofNat, ← zpow_natCast, div_eq_mul_inv, ← zpow_neg]
      · rename_i hk
        obtain ⟨n, rfl⟩ := Int.eq_ofNat_of_zero_le (not_lt.mp hk)
        rw [Int.toNat_natCast, Nat.pow_eq]
        apply ofRatio_eq negative Nat.one_pos
        rwa [Nat.cast_one, div_one, Nat.cast_mul, Nat.cast_pow, Nat.cast_ofNat, ← zpow_natCast]

end Number

/-- **A numeral is read as the number nearest to it**, with its sign. -/
theorem Numeral.exact_eq {n : Numeral} {m : Magnitude} (h : m.IsNearest |n.value|) :
    n.exact = .finite n.negative m := by
  rw [Numeral.exact]
  apply Number.ofDecimal_eq
  rwa [value, abs_sign_mul n.negative (Magnitude.decimal_nonneg _ _)] at h

end Stencil
