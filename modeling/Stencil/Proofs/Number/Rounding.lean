import Mathlib.Algebra.Order.Field.Rat
import Mathlib.Algebra.Order.Field.Basic
import Mathlib.Tactic.Linarith
import Mathlib.Tactic.Ring
import Stencil.Number.Shortest

/-!
# Rounding to magnitudes

`Magnitude.value` is the rational number that a magnitude stands for, and
`Magnitude.IsNearest m x` says that `m` is what `x` rounds to, to the nearest one and to the
even one of two.  It says so by comparing `x` with all magnitudes, so that no two of them are
what one `x` rounds to (`IsNearest.unique`).

The program never compares with all magnitudes: it looks where `x` lies between the two ends
`low4` and `high4`.  That this is the same rests on the gaps: no magnitude lies within a step
above `m`, nor within a step below it, a step that is half as long under a power of two.
-/

namespace Stencil.Magnitude

/-! ### Values -/

theorem unitsPerOne_eq : unitsPerOne = 2 ^ 1074 := by
  unfold unitsPerOne
  -- so that the power is not computed
  generalize 1074 = n
  rfl

theorem unitsPerOne_pos : 0 < unitsPerOne := by
  have hOne := unitsPerOne_eq
  generalize 1074 = n at hOne
  rw [hOne]
  exact Nat.two_pow_pos n

def unit : ℚ := unitsPerOne

theorem unit_pos : 0 < unit := Nat.cast_pos.mpr unitsPerOne_pos

def value (m : Magnitude) : ℚ := m.units / unit

theorem value_mul_unit (m : Magnitude) : m.value * unit = m.units :=
  div_mul_cancel₀ _ unit_pos.ne'

theorem value_nonneg (m : Magnitude) : 0 ≤ m.value := div_nonneg (Nat.cast_nonneg _) unit_pos.le

variable {m k : Magnitude}

theorem units_eq (m : Magnitude) : m.units = m.mantissa * 2 ^ m.exponent := rfl

theorem value_eq_zero (h : m.mantissa = 0) : m.value = 0 := by
  rw [value, units_eq, h, Nat.zero_mul, Nat.cast_zero, zero_div]

theorem high4_eq (m : Magnitude) : m.high4 = 4 * m.units + 2 * 2 ^ m.exponent := rfl

theorem low4_eq (m : Magnitude) :
    m.low4 = if m.mantissa = 2 ^ 52 ∧ m.exponent ≠ 0 then 4 * m.units - 2 ^ m.exponent
      else 4 * m.units - 2 * 2 ^ m.exponent := rfl

theorem mantissa_lt_two_pow (m : Magnitude) : m.mantissa < 2 ^ 53 := m.mantissa_lt

theorem two_pow_le_mantissa (h : m.exponent ≠ 0) : 2 ^ 52 ≤ m.mantissa := m.full.resolve_left h

/-! ### The gaps between magnitudes -/

theorem units_add_le_two_pow (m : Magnitude) :
    m.units + 2 ^ m.exponent ≤ 2 ^ 53 * 2 ^ m.exponent := by
  calc m.units + 2 ^ m.exponent = (m.mantissa + 1) * 2 ^ m.exponent := by rw [units_eq]; ring
    _ ≤ 2 ^ 53 * 2 ^ m.exponent := Nat.mul_le_mul_right _ m.mantissa_lt_two_pow

theorem two_mul_two_pow_le {a b : Nat} (h : a < b) : 2 * 2 ^ a ≤ 2 ^ b := by
  rw [← Nat.pow_succ']
  exact Nat.pow_le_pow_right (by decide) h

theorem two_pow_le_two_mul {a b : Nat} (h : a ≤ b + 1) : 2 ^ a ≤ 2 * 2 ^ b := by
  rw [← Nat.pow_succ']
  exact Nat.pow_le_pow_right (by decide) h

theorem units_apart (he : m.exponent ≤ k.exponent) :
    (m.units < k.units → m.units + 2 ^ m.exponent ≤ k.units) ∧
      (k.units < m.units → k.units + 2 ^ m.exponent ≤ m.units) := by
  obtain ⟨d, hd⟩ := Nat.exists_eq_add_of_le he
  have hk : k.units = k.mantissa * 2 ^ d * 2 ^ m.exponent := by
    rw [units_eq, hd, Nat.pow_add]; ring
  have step : ∀ a b : Nat, a * 2 ^ m.exponent < b * 2 ^ m.exponent →
      a * 2 ^ m.exponent + 2 ^ m.exponent ≤ b * 2 ^ m.exponent := by
    intro a b h
    have hab : a + 1 ≤ b := Nat.lt_of_mul_lt_mul_right h
    calc a * 2 ^ m.exponent + 2 ^ m.exponent = (a + 1) * 2 ^ m.exponent := by ring
      _ ≤ b * 2 ^ m.exponent := Nat.mul_le_mul_right _ hab
  rw [hk, units_eq m]
  exact ⟨step _ _, step _ _⟩

theorem units_lt_of_exponent_lt (he : k.exponent < m.exponent) : k.units < m.units := by
  have hk := k.units_add_le_two_pow
  have hm : 2 ^ 52 * 2 ^ m.exponent ≤ m.units :=
    Nat.mul_le_mul_right _ (two_pow_le_mantissa (by omega))
  have hp := two_mul_two_pow_le he
  have := Nat.two_pow_pos k.exponent
  omega

theorem units_add_le (h : m.units < k.units) : m.units + 2 ^ m.exponent ≤ k.units := by
  rcases Nat.lt_or_ge k.exponent m.exponent with he | he
  · have := units_lt_of_exponent_lt he
    omega
  · exact (units_apart he).1 h

theorem high4_le (h : m.units < k.units) : m.high4 ≤ 2 * (m.units + k.units) := by
  have := units_add_le h
  rw [high4_eq]
  omega

theorem le_low4 (h : k.units < m.units) : 2 * (k.units + m.units) ≤ m.low4 := by
  rcases Nat.lt_or_ge k.exponent m.exponent with he | he
  · have hk := k.units_add_le_two_pow
    have hFull := two_pow_le_mantissa (m := m) (by omega)
    have hp := two_mul_two_pow_le he
    rw [low4_eq]
    split
    · -- under a power of two the step is that of the exponent before
      rename_i narrow
      rw [units_eq m, narrow.1]
      omega
    · rename_i wide
      have hm : (2 ^ 52 + 1) * 2 ^ m.exponent ≤ m.units := Nat.mul_le_mul_right _ (by omega)
      omega
  · have := (units_apart he).2 h
    rw [low4_eq]
    split <;> omega

theorem units_injective : Function.Injective units := by
  intro m k h
  rcases Nat.lt_trichotomy m.exponent k.exponent with he | he | he
  · exact absurd h (units_lt_of_exponent_lt he).ne
  · rw [units_eq, units_eq, he] at h
    have hMant := Nat.eq_of_mul_eq_mul_right (Nat.two_pow_pos _) h
    cases m; cases k; simp_all
  · exact absurd h (units_lt_of_exponent_lt he).ne'

/-! ### Nearest magnitudes -/

/-- The least number that is too large: halfway from the greatest magnitude to the one that
would come next. -/
def tooLarge : ℚ := (2 ^ 54 - 1) * 2 ^ 970

/-- A magnitude is what a number rounds to: it is the nearest one and, if another one is as
near, has an even mantissa. -/
structure IsNearest (m : Magnitude) (x : ℚ) : Prop where
  le : ∀ k : Magnitude, |x - m.value| ≤ |x - k.value|
  even : ∀ k : Magnitude, k ≠ m → |x - k.value| = |x - m.value| → m.mantissa % 2 = 0
  lt : x < tooLarge

/-- A number lies between the ends of what rounds to a magnitude; the ends count when the
mantissa is even. -/
structure Encloses (m : Magnitude) (x : ℚ) : Prop where
  low : m.low4 ≤ 4 * (x * unit)
  high : 4 * (x * unit) ≤ m.high4
  strict : m.mantissa % 2 ≠ 0 → m.low4 < 4 * (x * unit) ∧ 4 * (x * unit) < m.high4

theorem abs_sub_value_mul_unit (x : ℚ) (m : Magnitude) :
    |x - m.value| * unit = |x * unit - m.units| := by
  rw [← value_mul_unit, ← sub_mul, abs_mul, abs_of_pos unit_pos]

theorem abs_sub_value_le_iff (x : ℚ) (m k : Magnitude) :
    |x - m.value| ≤ |x - k.value| ↔ |x * unit - m.units| ≤ |x * unit - k.units| := by
  rw [← abs_sub_value_mul_unit, ← abs_sub_value_mul_unit, mul_le_mul_iff_left₀ unit_pos]

theorem tooLarge_mul_unit : tooLarge * unit = ((2 ^ 54 - 1) * 2 ^ 2044 : Nat) := by
  have hu : unit = 2 ^ 1074 := by
    rw [unit, unitsPerOne_eq, Nat.cast_pow, Nat.cast_ofNat]
  rw [tooLarge, hu, mul_assoc, ← pow_add, Nat.cast_mul, Nat.cast_pow, Nat.cast_ofNat]
  norm_num only

theorem high4_le_tooLarge (m : Magnitude) :
    m.high4 ≤ 4 * ((2 ^ 54 - 1) * 2 ^ 2044) ∧
      (m.mantissa % 2 = 0 → m.high4 < 4 * ((2 ^ 54 - 1) * 2 ^ 2044)) := by
  have hm := m.units_add_le_two_pow
  have he : 2 ^ m.exponent ≤ 2 * 2 ^ 2044 := two_pow_le_two_mul m.exponent_le
  rw [high4_eq]
  refine ⟨by omega, fun hEven => ?_⟩
  have hlt := m.mantissa_lt_two_pow
  have hm' : m.units + 2 * 2 ^ m.exponent ≤ 2 ^ 53 * 2 ^ m.exponent := by
    calc m.units + 2 * 2 ^ m.exponent = (m.mantissa + 2) * 2 ^ m.exponent := by rw [units_eq]; ring
      _ ≤ 2 ^ 53 * 2 ^ m.exponent := Nat.mul_le_mul_right _ (by omega)
  have := Nat.two_pow_pos 2044
  omega

theorem abs_sub_le_iff_of_lt {a b y : ℚ} (h : a < b) :
    (|y - a| ≤ |y - b| ↔ 2 * y ≤ a + b) ∧ (|y - b| ≤ |y - a| ↔ a + b ≤ 2 * y) := by
  rw [← sq_le_sq, ← sq_le_sq]
  refine ⟨⟨fun hy => ?_, fun hy => ?_⟩, ⟨fun hy => ?_, fun hy => ?_⟩⟩ <;> nlinarith

/-- What lies between the ends of a magnitude rounds to it. -/
theorem Encloses.isNearest {x : ℚ} (h : m.Encloses x) : m.IsNearest x := by
  have above : ∀ k : Magnitude, m.units < k.units → (m.high4 : ℚ) ≤ 2 * (m.units + k.units) :=
    fun k hk => by exact_mod_cast high4_le hk
  have below : ∀ k : Magnitude, k.units < m.units → 2 * (k.units + m.units) ≤ (m.low4 : ℚ) :=
    fun k hk => by exact_mod_cast le_low4 hk
  refine ⟨fun k => ?_, fun k hne hTie => ?_, ?_⟩
  · rw [abs_sub_value_le_iff]
    rcases Nat.lt_trichotomy m.units k.units with hk | hk | hk
    · rw [(abs_sub_le_iff_of_lt (Nat.cast_lt.mpr hk)).1]
      linarith [above k hk, h.high]
    · rw [hk]
    · rw [(abs_sub_le_iff_of_lt (Nat.cast_lt.mpr hk)).2]
      linarith [below k hk, h.low]
  · by_contra hOdd
    have hle := (abs_sub_value_le_iff x k m).mp hTie.le
    rcases Nat.lt_trichotomy m.units k.units with hk | hk | hk
    · rw [(abs_sub_le_iff_of_lt (Nat.cast_lt.mpr hk)).2] at hle
      linarith [above k hk, (h.strict hOdd).2]
    · exact hne (units_injective hk.symm)
    · rw [(abs_sub_le_iff_of_lt (Nat.cast_lt.mpr hk)).1] at hle
      linarith [below k hk, (h.strict hOdd).1]
  · rw [← mul_lt_mul_iff_left₀ unit_pos, tooLarge_mul_unit]
    obtain ⟨hle, hlt⟩ := m.high4_le_tooLarge
    generalize (2 ^ 54 - 1) * 2 ^ 2044 = top at hle hlt ⊢
    have hle' : (m.high4 : ℚ) ≤ 4 * top := by exact_mod_cast hle
    by_cases hEven : m.mantissa % 2 = 0
    · have hlt' : (m.high4 : ℚ) < 4 * top := by exact_mod_cast hlt hEven
      linarith [h.high]
    · linarith [(h.strict hEven).2]

theorem exists_units_between (hm : m.mantissa % 2 = 0) (hk : k.mantissa % 2 = 0)
    (h : m.units < k.units) : ∃ l : Magnitude, m.units < l.units ∧ l.units < k.units := by
  have hlt := m.mantissa_lt_two_pow
  let l : Magnitude := ⟨m.mantissa + 1, m.exponent, by show _ < 2 ^ 53; omega, m.exponent_le,
    m.full.imp_right fun h => Nat.le_succ_of_le h⟩
  have hl : l.units = m.units + 2 ^ m.exponent := by
    show (m.mantissa + 1) * 2 ^ m.exponent = _
    rw [units_eq]; ring
  have hne : l.units ≠ k.units := by
    intro hEq
    have : l.mantissa = m.mantissa + 1 := rfl
    rw [units_injective hEq] at this
    omega
  have := units_add_le h
  have := Nat.two_pow_pos m.exponent
  exact ⟨l, by omega, by omega⟩

/-- A number rounds to one magnitude only. -/
theorem IsNearest.unique {x : ℚ} (hm : m.IsNearest x) (hk : k.IsNearest x) : m = k := by
  have main : ∀ {m k : Magnitude}, m.IsNearest x → k.IsNearest x → ¬ m.units < k.units := by
    intro m k hm hk hlt
    have hne : k ≠ m := by rintro rfl; exact hlt.ne rfl
    have hTie : |x - k.value| = |x - m.value| := le_antisymm (hk.le m) (hm.le k)
    obtain ⟨l, hml, hlk⟩ :=
      exists_units_between (hm.even k hne hTie) (hk.even m hne.symm hTie.symm) hlt
    -- `x` is in the middle of the two, and thus nearer to the one between
    have h₁ := (abs_sub_value_le_iff x k m).mp (hk.le m)
    have h₂ := (abs_sub_value_le_iff x m l).mp (hm.le l)
    rw [(abs_sub_le_iff_of_lt (Nat.cast_lt.mpr hlt)).2] at h₁
    rw [(abs_sub_le_iff_of_lt (Nat.cast_lt.mpr hml)).1] at h₂
    have : (l.units : ℚ) < k.units := Nat.cast_lt.mpr hlk
    linarith
  exact units_injective (Nat.le_antisymm (Nat.le_of_not_lt (main hk hm))
    (Nat.le_of_not_lt (main hm hk)))

theorem value_lt_tooLarge (m : Magnitude) : m.value < tooLarge := by
  have hle := m.high4_le_tooLarge.1
  rw [high4_eq] at hle
  have hp := Nat.two_pow_pos m.exponent
  rw [← mul_lt_mul_iff_left₀ unit_pos, tooLarge_mul_unit, value_mul_unit]
  generalize (2 ^ 54 - 1) * 2 ^ 2044 = top at *
  exact Nat.cast_lt.mpr (by omega)

theorem isNearest_value (m : Magnitude) : m.IsNearest m.value := by
  refine ⟨fun k => ?_, fun k hne hTie => ?_, m.value_lt_tooLarge⟩
  · rw [sub_self, abs_zero]
    exact abs_nonneg _
  · rw [sub_self, abs_zero, abs_eq_zero, sub_eq_zero, value, value,
      div_left_inj' unit_pos.ne', Nat.cast_inj] at hTie
    exact absurd (units_injective hTie.symm) hne

theorem Encloses.lt_value {x : ℚ} (hx : m.Encloses x) (h : m.value < k.value) : x < k.value := by
  rw [← mul_lt_mul_iff_left₀ unit_pos, value_mul_unit, value_mul_unit] at h
  have hle : (m.high4 : ℚ) ≤ 2 * (m.units + k.units) := by
    exact_mod_cast high4_le (Nat.cast_lt.mp h)
  rw [← mul_lt_mul_iff_left₀ unit_pos, value_mul_unit]
  linarith [hx.high]

/-! ### Magnitudes with a given value -/

theorem value_eq_zpow (m : Magnitude) : m.value = m.mantissa * 2 ^ ((m.exponent : Int) - 1074) := by
  have hOne := unitsPerOne_eq
  rw [value, units_eq, unit]
  rw [show (m.exponent : Int) - 1074 = m.exponent - (1074 : Nat) from rfl]
  generalize 1074 = n at hOne ⊢
  rw [hOne, zpow_sub₀ (by norm_num), zpow_natCast, zpow_natCast]
  push_cast
  ring

theorem exists_make?_eq_some {a e : Nat} (ha : a < 2 ^ 53) (he : e ≤ 2045)
    (hFull : e = 0 ∨ 2 ^ 52 ≤ a) :
    ∃ m, make? a e = some m ∧ m.mantissa = a ∧ m.exponent = e :=
  ⟨⟨a, e, ha, he, hFull⟩, dif_pos ⟨ha, he, hFull⟩, rfl, rfl⟩

theorem exists_units_eq {a b : Nat} (ha : a < 2 ^ 53) (hb : b ≤ 2045) :
    ∃ m : Magnitude, m.units = a * 2 ^ b := by
  induction b generalizing a with
  | zero => exact ⟨⟨a, 0, ha, Nat.zero_le _, .inl rfl⟩, rfl⟩
  | succ b ih =>
    by_cases hFull : 2 ^ 52 ≤ a
    · exact ⟨⟨a, b + 1, ha, hb, .inr hFull⟩, rfl⟩
    · obtain ⟨m, hm⟩ := ih (a := 2 * a) (by omega) (by omega)
      refine ⟨m, ?_⟩
      rw [hm, Nat.pow_succ]
      ring

theorem exists_value_eq {a b : Nat} (ha : a < 2 ^ 53) (hb : b ≤ 971) :
    ∃ m : Magnitude, m.value = a * 2 ^ b := by
  obtain ⟨m, hm⟩ := exists_units_eq (b := b + 1074) ha (by omega)
  refine ⟨m, ?_⟩
  have hUnits : m.units = a * 2 ^ b * unitsPerOne := by
    have hOne := unitsPerOne_eq
    generalize 1074 = n at hm hOne
    rw [hm, hOne, Nat.pow_add, Nat.mul_assoc]
  rw [value, hUnits, div_eq_iff unit_pos.ne', unit]
  push_cast
  ring

theorem exists_value_eq_natCast {n : Nat} (hn : n ≤ 2 ^ 53) : ∃ m : Magnitude, m.value = n := by
  rcases Nat.lt_or_eq_of_le hn with hlt | rfl
  · obtain ⟨m, hm⟩ := exists_value_eq (b := 0) hlt (by decide)
    exact ⟨m, by rw [hm, pow_zero, mul_one]⟩
  · obtain ⟨m, hm⟩ := exists_value_eq (a := 1) (b := 53) (by decide) (by decide)
    exact ⟨m, by rw [hm]; norm_num⟩

/-! ### Rounding of quotients -/

theorem encloses_iff {num den : Nat} {x : ℚ} (hDen : 0 < den) (hx : x * unit = num / den) :
    m.Encloses x ↔ m.low4 * den ≤ 4 * num ∧ 4 * num ≤ m.high4 * den ∧
      (m.mantissa % 2 ≠ 0 → m.low4 * den < 4 * num ∧ 4 * num < m.high4 * den) := by
  have hd : (0 : ℚ) < den := Nat.cast_pos.mpr hDen
  have hx' : 4 * (x * unit) = (4 * num : Nat) / den := by rw [hx, Nat.cast_mul]; ring
  constructor
  · rintro ⟨hLow, hHigh, hStrict⟩
    rw [hx', le_div_iff₀ hd] at hLow
    rw [hx', div_le_iff₀ hd] at hHigh
    rw [hx', lt_div_iff₀ hd, div_lt_iff₀ hd] at hStrict
    exact_mod_cast And.intro hLow (And.intro hHigh hStrict)
  · rintro ⟨hLow, hHigh, hStrict⟩
    refine ⟨?_, ?_, ?_⟩
    · rw [hx', le_div_iff₀ hd]; exact_mod_cast hLow
    · rw [hx', div_le_iff₀ hd]; exact_mod_cast hHigh
    · rw [hx', lt_div_iff₀ hd, div_lt_iff₀ hd]; exact_mod_cast hStrict

/-- A quotient lies within a half of the nearest integer, and in the middle only when that
is even. -/
theorem nearest_spec (num : Nat) {den : Nat} (h : 0 < den) :
    2 * (nearest num den * den) ≤ 2 * num + den ∧ 2 * num ≤ 2 * (nearest num den * den) + den ∧
      (nearest num den % 2 ≠ 0 →
        2 * (nearest num den * den) < 2 * num + den ∧
          2 * num < 2 * (nearest num den * den) + den) := by
  have hDiv := Nat.div_add_mod num den
  have hlt := Nat.mod_lt num h
  rw [Nat.mul_comm] at hDiv
  rw [nearest]
  split
  · omega
  · rename_i hLow
    split
    · rw [Nat.add_one_mul (num / den)]; omega
    · rename_i hHigh
      rcases Nat.mod_two_eq_zero_or_one (num / den) with hPar | hPar
      · rw [hPar, Nat.add_zero]; omega
      · rw [hPar, Nat.add_one_mul (num / den)]; omega

theorem make?_eq_some {mantissa exponent : Nat} (h : make? mantissa exponent = some m) :
    m.mantissa = mantissa ∧ m.exponent = exponent := by
  rw [make?] at h
  split at h
  · cases h; exact ⟨rfl, rfl⟩
  · cases h

theorem of_make?_eq_none {mantissa exponent : Nat} (h : make? mantissa exponent = none) :
    ¬ (mantissa < 2 ^ 53 ∧ exponent ≤ 2045 ∧ (exponent = 0 ∨ 2 ^ 52 ≤ mantissa)) := by
  rw [make?] at h
  split at h
  · cases h
  · assumption

/-- The exponent leaves 53 digits, or fewer when it is 0. -/
theorem exponentFor_spec (num : Nat) {den : Nat} (h : 0 < den) :
    num < 2 ^ 53 * (den * 2 ^ exponentFor num den) ∧
      (exponentFor num den ≠ 0 → 2 ^ 52 * (den * 2 ^ exponentFor num den) ≤ num) := by
  rw [exponentFor]
  have hlt : num / den < 2 ^ ((num / den).log2 + 1) := Nat.lt_log2_self
  constructor
  · have hle : 2 ^ ((num / den).log2 + 1) ≤ 2 ^ (53 + ((num / den).log2 - 52)) :=
      Nat.pow_le_pow_right (by decide) (by omega)
    rw [Nat.pow_add 2 53] at hle
    have := (Nat.div_lt_iff_lt_mul h).mp (hlt.trans_le hle)
    calc num < 2 ^ 53 * 2 ^ ((num / den).log2 - 52) * den := this
      _ = 2 ^ 53 * (den * 2 ^ ((num / den).log2 - 52)) := by ring
  · intro hne
    have hPos : num / den ≠ 0 := by
      intro hz
      rw [hz] at hne
      exact hne rfl
    have hle : 2 ^ (52 + ((num / den).log2 - 52)) ≤ num / den := by
      rw [show 52 + ((num / den).log2 - 52) = (num / den).log2 by omega]
      exact Nat.log2_self_le hPos
    rw [Nat.pow_add 2 52] at hle
    have := (Nat.le_div_iff_mul_le h).mp hle
    calc 2 ^ 52 * (den * 2 ^ ((num / den).log2 - 52))
        = 2 ^ 52 * 2 ^ ((num / den).log2 - 52) * den := by ring
      _ ≤ num := this

theorem high4_mul (m : Magnitude) (den : Nat) :
    m.high4 * den = 4 * (m.units * den) + 2 * (den * 2 ^ m.exponent) := by
  rw [high4_eq]; ring

theorem low4_mul (m : Magnitude) (den : Nat) :
    m.low4 * den = if m.mantissa = 2 ^ 52 ∧ m.exponent ≠ 0 then
        4 * (m.units * den) - den * 2 ^ m.exponent
      else 4 * (m.units * den) - 2 * (den * 2 ^ m.exponent) := by
  rw [low4_eq, ite_mul, Nat.sub_mul, Nat.sub_mul]
  simp only [Nat.mul_assoc, Nat.mul_comm den]

theorem div_mul_unit (num den : Nat) :
    (num / den : ℚ) * unit = (num * unitsPerOne : Nat) / den := by
  rw [unit, Nat.cast_mul]
  ring

variable {num den : Nat}

/-- The magnitude that is found has the quotient between its ends. -/
theorem encloses_of_round? (hDen : 0 < den) (h : round? num den = some m) :
    m.Encloses (num / den) := by
  rw [encloses_iff hDen (div_mul_unit num den), high4_mul, low4_mul]
  rw [round?] at h
  set scaled := num * unitsPerOne
  obtain ⟨-, hFull⟩ := exponentFor_spec scaled hDen
  obtain ⟨hLow, hHigh, hStrict⟩ :=
    nearest_spec scaled (Nat.mul_pos hDen (Nat.two_pow_pos (exponentFor scaled den)))
  simp only [Nat.pow_eq] at h
  set exponent := exponentFor scaled den
  set mantissa := nearest scaled (den * 2 ^ exponent) with hMant
  split at h
  · -- a mantissa of 54 digits becomes half of it, with the next exponent
    rename_i hCarry
    obtain ⟨hm, he⟩ := make?_eq_some h
    have hStep : den * 2 ^ m.exponent = 2 * (den * 2 ^ exponent) := by rw [he, Nat.pow_succ]; ring
    have hUnits : m.units * den = mantissa * (den * 2 ^ exponent) := by
      rw [units_eq, hm, hCarry, he]; ring
    rw [hUnits, hStep, if_pos ⟨hm, by omega⟩]
    refine ⟨by omega, by omega, fun hOdd => absurd ?_ hOdd⟩
    rw [hm]
  · obtain ⟨hm, he⟩ := make?_eq_some h
    have hUnits : m.units * den = mantissa * (den * 2 ^ exponent) := by
      rw [units_eq, hm, he]; ring
    rw [hUnits, he, hm]
    refine ⟨?_, by omega, fun hOdd => ⟨?_, by have := hStrict hOdd; omega⟩⟩
    · split
      · -- the quotient has 53 digits before it is rounded
        rename_i narrow
        have := hFull narrow.2
        rw [narrow.1]
        omega
      · omega
    · rw [if_neg fun narrow => hOdd (by omega)]
      have := hStrict hOdd
      have := Nat.le_mul_of_pos_left (den * 2 ^ exponent) (show 0 < mantissa by omega)
      omega

/-- The rounded mantissa has 53 digits, or fewer when the exponent is 0, or is the least one
of 54. -/
theorem nearest_exponentFor (num : Nat) (hDen : 0 < den) :
    nearest num (den * 2 ^ exponentFor num den) ≤ 2 ^ 53 ∧
      (exponentFor num den ≠ 0 → 2 ^ 52 ≤ nearest num (den * 2 ^ exponentFor num den)) := by
  obtain ⟨hDigits, hFull⟩ := exponentFor_spec num hDen
  have hD := Nat.mul_pos hDen (Nat.two_pow_pos (exponentFor num den))
  obtain ⟨hLow, hHigh, -⟩ := nearest_spec num hD
  generalize den * 2 ^ exponentFor num den = D at *
  have cancel : ∀ a b : Nat, a * D < b * D → a < b := fun a b => Nat.lt_of_mul_lt_mul_right
  constructor
  · have := cancel (2 * nearest num D) (2 ^ 54 + 1) (by rw [Nat.mul_assoc]; omega)
    omega
  · intro he
    have := hFull he
    have := cancel (2 ^ 53) (2 * nearest num D + 2) (by rw [Nat.add_mul, Nat.mul_assoc 2]; omega)
    omega

theorem tooLarge_le_of_round?_eq_none (hDen : 0 < den) (h : round? num den = none) :
    tooLarge ≤ num / den := by
  rw [← mul_le_mul_iff_left₀ unit_pos, tooLarge_mul_unit, div_mul_unit,
    le_div_iff₀ (Nat.cast_pos.mpr hDen), ← Nat.cast_mul, Nat.cast_le]
  rw [round?] at h
  set scaled := num * unitsPerOne
  obtain ⟨hle, hFull⟩ := nearest_exponentFor scaled hDen
  obtain ⟨-, hge⟩ := exponentFor_spec scaled hDen
  obtain ⟨hLow, -, -⟩ :=
    nearest_spec scaled (Nat.mul_pos hDen (Nat.two_pow_pos (exponentFor scaled den)))
  simp only [Nat.pow_eq] at h
  set exponent := exponentFor scaled den
  set mantissa := nearest scaled (den * 2 ^ exponent)
  have scale : ∀ a b : Nat, a * 2 ^ b * den = a * (den * 2 ^ b) := fun a b => by ring
  have grow : ∀ {e}, e < exponent → 2 * (den * 2 ^ e) ≤ den * 2 ^ exponent := fun he => by
    have := Nat.mul_le_mul_left den (two_mul_two_pow_le he)
    rwa [Nat.mul_left_comm] at this
  rw [scale]
  split at h
  · rename_i hCarry
    have hNone := of_make?_eq_none h
    have := grow (e := 2044) (by omega)
    rw [hCarry] at hLow
    omega
  · rename_i hne
    have hNone := of_make?_eq_none h
    have h₁ := hge (by omega)
    have h₂ := grow (e := 2045) (by omega)
    have h₃ := Nat.mul_le_mul_left den (two_mul_two_pow_le (Nat.lt_succ_self 2044))
    rw [Nat.mul_left_comm] at h₃
    omega

/-- **What a quotient is rounded to is the one magnitude nearest to it.** -/
theorem round?_eq_some_iff (hDen : 0 < den) :
    round? num den = some m ↔ m.IsNearest (num / den) := by
  refine ⟨fun h => (encloses_of_round? hDen h).isNearest, fun h => ?_⟩
  cases hr : round? num den with
  | none => exact absurd h.lt (not_lt.mpr (tooLarge_le_of_round?_eq_none hDen hr))
  | some k => rw [(encloses_of_round? hDen hr).isNearest.unique h]

/-- **What rounds to a magnitude is what lies between its ends.** -/
theorem isNearest_iff_encloses {x : ℚ} (hx : 0 ≤ x) : m.IsNearest x ↔ m.Encloses x := by
  refine ⟨fun h => ?_, Encloses.isNearest⟩
  have hQuot : ((x.num.toNat : ℚ) / x.den) = x := by
    have hNum : ((x.num.toNat : Int) : ℚ) = x.num := by
      rw [Int.toNat_of_nonneg (Rat.num_nonneg.mpr hx)]
    rw [← Int.cast_natCast, hNum, Rat.num_div_den]
  rw [← hQuot] at h ⊢
  exact encloses_of_round? x.den_pos ((round?_eq_some_iff x.den_pos).mpr h)

theorem round?_of_value_eq {n : Nat} (h : m.value = n) : round? n 1 = some m := by
  rw [round?_eq_some_iff Nat.one_pos, Nat.cast_one, div_one, ← h]
  exact m.isNearest_value

end Stencil.Magnitude
