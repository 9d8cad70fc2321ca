import Mathlib.Data.Int.Log
import Mathlib.Data.List.TakeWhile
import Mathlib.Data.Rat.Floor
import Mathlib.Tactic.Linarith
import Mathlib.Tactic.Ring
import Mathlib.Tactic.Positivity
import Stencil.Proofs.Number.Rounding
import Stencil.Proofs.Text.Digit

/-!
# The shortest decimal of a magnitude

The digits of a magnitude are looked for on the grids of the multiples of a power of ten, from
one significant digit on.

* `Magnitude.readsBack_iff`: a decimal reads back when it lies between the ends of a magnitude.
* `Magnitude.isSome_onGrid?`: a grid with any multiple that reads back is not passed over.
* `Magnitude.exists_encloses`: with seventeen digits there is always one.
* `Magnitude.exists_fewest_digits`: no decimal that reads back has fewer digits than the one found.
-/

namespace Stencil.Magnitude

open Text

variable {m : Magnitude}

/-! ### What lies between the ends -/

theorem Encloses.of_between {a b c : ℚ} (ha : m.Encloses a) (hb : m.Encloses b) (hac : a ≤ c)
    (hcb : c ≤ b) : m.Encloses c := by
  have hac' : a * unit ≤ c * unit := mul_le_mul_of_nonneg_right hac unit_pos.le
  have hcb' : c * unit ≤ b * unit := mul_le_mul_of_nonneg_right hcb unit_pos.le
  refine ⟨by linarith [ha.low], by linarith [hb.high], fun hOdd => ⟨?_, ?_⟩⟩
  · linarith [(ha.strict hOdd).1]
  · linarith [(hb.strict hOdd).2]

theorem Encloses.of_lt {x : ℚ} (hLow : m.low4 < 4 * (x * unit)) (hHigh : 4 * (x * unit) < m.high4) :
    m.Encloses x :=
  ⟨hLow.le, hHigh.le, fun _ => ⟨hLow, hHigh⟩⟩

theorem two_pow_exponent_le_units (h : m.mantissa ≠ 0) : 2 ^ m.exponent ≤ m.units :=
  Nat.le_mul_of_pos_left _ (Nat.pos_of_ne_zero h)

theorem high4_cast (m : Magnitude) : (m.high4 : ℚ) = 4 * m.units + 2 * 2 ^ m.exponent := by
  rw [high4_eq]; push_cast; rfl

theorem low4_cast (h : m.mantissa ≠ 0) :
    (m.low4 : ℚ) = if m.mantissa = 2 ^ 52 ∧ m.exponent ≠ 0 then (4 * m.units - 2 ^ m.exponent : ℚ)
      else (4 * m.units - 2 * 2 ^ m.exponent : ℚ) := by
  have hle := two_pow_exponent_le_units h
  rw [low4_eq]
  split
  · rw [Nat.cast_sub (by omega)]; push_cast; rfl
  · rw [Nat.cast_sub (by omega)]; push_cast; rfl

theorem encloses_value (h : m.mantissa ≠ 0) : m.Encloses m.value := by
  have hp : (0 : ℚ) < 2 ^ m.exponent := by positivity
  apply Encloses.of_lt
  · rw [low4_cast h, value_mul_unit]
    split <;> linarith
  · rw [high4_cast, value_mul_unit]
    linarith

theorem value_pos (h : m.mantissa ≠ 0) : 0 < m.value := by
  apply div_pos _ unit_pos
  have := two_pow_exponent_le_units h
  have := Nat.two_pow_pos m.exponent
  exact_mod_cast (by omega : 0 < m.units)

theorem Encloses.pos {x : ℚ} (h : m.Encloses x) (hm : m.mantissa ≠ 0) : 0 < x := by
  have hp : (0 : ℚ) < 2 ^ m.exponent := by positivity
  have hle : (2 ^ m.exponent : ℚ) ≤ m.units := by exact_mod_cast two_pow_exponent_le_units hm
  have hLow := h.low
  rw [low4_cast hm] at hLow
  have : 0 < x * unit := by split at hLow <;> linarith
  exact pos_of_mul_pos_left this unit_pos.le

/-! ### Grids -/

theorem decimal_nonneg (d : Nat) (k : Int) : (0 : ℚ) ≤ d * 10 ^ k :=
  mul_nonneg (Nat.cast_nonneg d) (zpow_nonneg (by norm_num) k)

theorem gridUnits_pos (k : Int) : 0 < (gridUnits k).1 ∧ 0 < (gridUnits k).2 := by
  have hPow : ∀ n, 0 < Nat.pow 10 n := fun n => Nat.pow_pos (by decide)
  have hOne := unitsPerOne_pos
  rw [gridUnits]
  generalize unitsPerOne = u at *
  split
  · exact ⟨Nat.mul_pos hOne (hPow _), Nat.one_pos⟩
  · exact ⟨hOne, hPow _⟩

theorem ten_zpow_mul_unit (k : Int) :
    (10 : ℚ) ^ k * unit = (gridUnits k).1 / (gridUnits k).2 := by
  rw [gridUnits]
  split
  · rename_i hk
    obtain ⟨n, rfl⟩ := Int.eq_ofNat_of_zero_le hk
    rw [Int.toNat_natCast, Nat.pow_eq, Nat.cast_mul, Nat.cast_pow, zpow_natCast, unit]
    push_cast
    ring
  · obtain ⟨n, rfl⟩ : ∃ n : Nat, k = -n := ⟨(-k).toNat, by omega⟩
    rw [neg_neg, Int.toNat_natCast, Nat.pow_eq, Nat.cast_pow, zpow_neg, zpow_natCast, unit]
    push_cast
    ring

theorem readsBack_eq (m : Magnitude) (digits : Nat) (k : Int) :
    m.readsBack digits k =
      if m.mantissa % 2 = 0 then
        m.low4 * (gridUnits k).2 ≤ 4 * digits * (gridUnits k).1 &&
          4 * digits * (gridUnits k).1 ≤ m.high4 * (gridUnits k).2
      else
        m.low4 * (gridUnits k).2 < 4 * digits * (gridUnits k).1 &&
          4 * digits * (gridUnits k).1 < m.high4 * (gridUnits k).2 :=
  rfl

/-- **A decimal reads back when it lies between the ends of a magnitude.** -/
theorem readsBack_iff {digits : Nat} {k : Int} :
    m.readsBack digits k = true ↔ m.Encloses (digits * 10 ^ k) := by
  have hx : (digits * 10 ^ k : ℚ) * unit = (digits * (gridUnits k).1 : Nat) / (gridUnits k).2 := by
    rw [mul_assoc, ten_zpow_mul_unit, Nat.cast_mul]; ring
  rw [encloses_iff (gridUnits_pos k).2 hx, ← Nat.mul_assoc, readsBack_eq]
  split
  · rename_i hEven
    rw [Bool.and_eq_true, decide_eq_true_eq, decide_eq_true_eq]
    exact ⟨fun h => ⟨h.1, h.2, fun hOdd => absurd hEven hOdd⟩, fun h => ⟨h.1, h.2.1⟩⟩
  · rename_i hOdd
    rw [Bool.and_eq_true, decide_eq_true_eq, decide_eq_true_eq]
    exact ⟨fun h => ⟨h.1.le, h.2.le, fun _ => h⟩, fun h => h.2.2 hOdd⟩

/-- The multiple of a power of ten next below a magnitude. -/
def below (m : Magnitude) (k : Int) : Nat := m.units * (gridUnits k).2 / (gridUnits k).1

theorem below_spec (m : Magnitude) (k : Int) :
    m.below k * (10 : ℚ) ^ k ≤ m.value ∧ m.value < (m.below k + 1 : Nat) * (10 : ℚ) ^ k := by
  obtain ⟨hNum, hDen⟩ := gridUnits_pos k
  have hd : (0 : ℚ) < (gridUnits k).2 := Nat.cast_pos.mpr hDen
  rw [← mul_le_mul_iff_left₀ unit_pos, ← mul_lt_mul_iff_left₀ unit_pos, mul_assoc, mul_assoc,
    ten_zpow_mul_unit, value_mul_unit, mul_div_assoc', mul_div_assoc', div_le_iff₀ hd,
    lt_div_iff₀ hd]
  constructor
  · exact_mod_cast Nat.div_mul_le_self _ _
  · exact_mod_cast Nat.lt_mul_of_div_lt (Nat.lt_succ_self _) hNum

theorem onGrid?_eq (m : Magnitude) (k : Int) :
    m.onGrid? k =
      if m.readsBack (m.below k) k && (!m.readsBack (m.below k + 1) k ||
          2 * (m.units * (gridUnits k).2) < (m.below k + (m.below k + 1)) * (gridUnits k).1) then
        some (m.below k)
      else if m.readsBack (m.below k + 1) k then some (m.below k + 1)
      else none :=
  rfl

theorem encloses_of_onGrid? {digits : Nat} {k : Int} (h : m.onGrid? k = some digits) :
    m.Encloses (digits * 10 ^ k) := by
  rw [onGrid?_eq] at h
  split at h
  · rename_i hLower
    cases h
    exact readsBack_iff.mp (Bool.and_eq_true _ _ ▸ hLower).1
  · split at h
    · rename_i hUpper
      cases h
      exact readsBack_iff.mp hUpper
    · cases h

/-- One of the two multiples next to a magnitude rounds to it when any of them does. -/
theorem encloses_below {digits : Nat} {k : Int} (hm : m.mantissa ≠ 0)
    (h : m.Encloses (digits * 10 ^ k)) :
    m.Encloses (m.below k * 10 ^ k) ∨ m.Encloses ((m.below k + 1 : Nat) * 10 ^ k) := by
  obtain ⟨hle, hlt⟩ := m.below_spec k
  have hStep : (0 : ℚ) ≤ 10 ^ k := zpow_nonneg (by norm_num) k
  by_cases hd : digits ≤ m.below k
  · left
    apply h.of_between (encloses_value hm) _ hle
    exact mul_le_mul_of_nonneg_right (Nat.cast_le.mpr hd) hStep
  · right
    apply (encloses_value hm).of_between h hlt.le
    exact mul_le_mul_of_nonneg_right (Nat.cast_le.mpr (by omega)) hStep

/-- **A grid with a multiple that rounds to a magnitude is not passed over.** -/
theorem exists_onGrid? {digits : Nat} {k : Int} (hm : m.mantissa ≠ 0)
    (h : m.Encloses (digits * 10 ^ k)) : ∃ d, m.onGrid? k = some d := by
  rw [onGrid?_eq]
  by_cases hUpper : m.readsBack (m.below k + 1) k = true
  · rw [if_pos hUpper]
    split
    · exact ⟨_, rfl⟩
    · exact ⟨_, rfl⟩
  · have hLower := readsBack_iff.mpr
      ((encloses_below hm h).resolve_right (mt readsBack_iff.mpr hUpper))
    rw [Bool.not_eq_true] at hUpper
    rw [hLower, hUpper]
    exact ⟨_, rfl⟩

theorem onGrid?_of_value_eq {digits : Nat} {k : Int} (hm : m.mantissa ≠ 0)
    (h : m.value = digits * 10 ^ k) : m.onGrid? k = some digits := by
  obtain ⟨hle, hlt⟩ := m.below_spec k
  have hStep : (0 : ℚ) < 10 ^ k := zpow_pos (by norm_num) k
  rw [h, mul_le_mul_iff_left₀ hStep, Nat.cast_le] at hle
  rw [h, mul_lt_mul_iff_left₀ hStep, Nat.cast_lt] at hlt
  have hBelow : m.below k = digits := by omega
  have hReads : m.readsBack digits k = true := readsBack_iff.mpr (h ▸ encloses_value hm)
  have hUnits : m.units * (gridUnits k).2 = digits * (gridUnits k).1 := by
    have hd : ((gridUnits k).2 : ℚ) ≠ 0 := Nat.cast_ne_zero.mpr (gridUnits_pos k).2.ne'
    have hEq := m.value_mul_unit
    rw [h, mul_assoc, ten_zpow_mul_unit, mul_div_assoc', div_eq_iff hd] at hEq
    exact_mod_cast hEq.symm
  have hNear : 2 * (digits * (gridUnits k).1) < (digits + (digits + 1)) * (gridUnits k).1 := by
    rw [← Nat.mul_assoc]
    exact Nat.mul_lt_mul_of_pos_right (by omega) (gridUnits_pos k).1
  rw [onGrid?_eq, hBelow, hReads, hUnits, decide_eq_true hNear, Bool.or_true]
  rfl

/-! ### The exponent of the first digit -/

theorem log_eq_of_le_of_lt {x : ℚ} {e : Int} (hle : (10 : ℚ) ^ e ≤ x) (hlt : x < 10 ^ (e + 1)) :
    Int.log 10 x = e := by
  have hx : 0 < x := lt_of_lt_of_le (zpow_pos (by norm_num) e) hle
  have h₁ : e ≤ Int.log 10 x := (Int.zpow_le_iff_le_log (by norm_num) hx).mp (by exact_mod_cast hle)
  have h₂ : Int.log 10 x < e + 1 :=
    (Int.lt_zpow_iff_log_lt (by norm_num) hx).mp (by exact_mod_cast hlt)
  omega

theorem decimalLength_spec {n : Nat} (h : n ≠ 0) :
    ∃ l, decimalLength n = l + 1 ∧ 10 ^ l ≤ n ∧ n < 10 ^ (l + 1) := by
  obtain ⟨l, hl⟩ := Nat.exists_eq_add_of_lt (Nat.length_toDigits_pos (b := 10) (n := n))
  rw [Nat.zero_add] at hl
  refine ⟨l, hl, ?_, (Nat.length_toDigits_le_iff (by decide) (Nat.succ_pos l)).mp hl.le⟩
  by_cases hl0 : l = 0
  · rw [hl0]
    exact Nat.pos_of_ne_zero h
  · by_contra hlt
    have := (Nat.length_toDigits_le_iff (by decide) (Nat.pos_of_ne_zero hl0)).mpr
      (Nat.lt_of_not_le hlt)
    omega

theorem log_value_of_le (h : unitsPerOne ≤ m.units) :
    Int.log 10 m.value = (decimalLength (m.units / unitsPerOne) : Int) - 1 := by
  have hDiv : m.units / unitsPerOne ≠ 0 := (Nat.div_pos h unitsPerOne_pos).ne'
  obtain ⟨l, hl, hle, hlt⟩ := decimalLength_spec hDiv
  rw [hl]
  have hle' := (Nat.le_div_iff_mul_le unitsPerOne_pos).mp hle
  have hlt' := (Nat.div_lt_iff_lt_mul unitsPerOne_pos).mp hlt
  apply log_eq_of_le_of_lt
  · rw [show ((l + 1 : Nat) : Int) - 1 = (l : Int) by omega, zpow_natCast, value,
      le_div_iff₀ unit_pos, unit]
    exact_mod_cast hle'
  · rw [show ((l + 1 : Nat) : Int) - 1 + 1 = ((l + 1 : Nat) : Int) by omega, zpow_natCast, value,
      div_lt_iff₀ unit_pos, unit]
    exact_mod_cast hlt'

theorem log_value_of_lt (h : m.units < unitsPerOne) (hm : m.mantissa ≠ 0) :
    Int.log 10 m.value =
      -(decimalLength ((unitsPerOne + m.units - 1) / m.units - 1) : Int) := by
  have hPos : 0 < m.units :=
    lt_of_lt_of_le (Nat.two_pow_pos _) (two_pow_exponent_le_units hm)
  have hCeil : (unitsPerOne + m.units - 1) / m.units - 1 = (unitsPerOne - 1) / m.units := by
    rw [show unitsPerOne + m.units - 1 = unitsPerOne - 1 + m.units by omega,
      Nat.add_div_right _ hPos, Nat.succ_sub_one]
  have hDiv : (unitsPerOne - 1) / m.units ≠ 0 := (Nat.div_pos (by omega) hPos).ne'
  obtain ⟨l, hl, hle, hlt⟩ := decimalLength_spec hDiv
  have hle' := (Nat.le_div_iff_mul_le hPos).mp hle
  have hlt' := (Nat.div_lt_iff_lt_mul hPos).mp hlt
  rw [hCeil, hl]
  apply log_eq_of_le_of_lt
  · have hUnits : unitsPerOne ≤ m.units * 10 ^ (l + 1) := by
      rw [Nat.mul_comm]
      omega
    rw [zpow_neg, zpow_natCast, value, inv_le_iff_one_le_mul₀ (by positivity), div_mul_eq_mul_div,
      le_div_iff₀ unit_pos, one_mul, unit]
    exact_mod_cast hUnits
  · rw [show -((l + 1 : Nat) : Int) + 1 = -(l : Int) by omega, zpow_neg, zpow_natCast, value,
      lt_inv_comm₀ (div_pos (by exact_mod_cast hPos) unit_pos) (by positivity), inv_div,
      lt_div_iff₀ (by exact_mod_cast hPos), unit]
    exact_mod_cast (by omega : 10 ^ l * m.units < unitsPerOne)

theorem decimalExponent_eq (hm : m.mantissa ≠ 0) : m.decimalExponent = Int.log 10 m.value := by
  rw [decimalExponent]
  split
  · rename_i h
    exact (log_value_of_le h).symm
  · rename_i h
    exact (log_value_of_lt (Nat.lt_of_not_le h) hm).symm

theorem zpow_decimalExponent (hm : m.mantissa ≠ 0) :
    (10 : ℚ) ^ m.decimalExponent ≤ m.value ∧ m.value < 10 ^ (m.decimalExponent + 1) := by
  rw [decimalExponent_eq hm]
  exact ⟨by exact_mod_cast Int.zpow_log_le_self (b := 10) (by decide) (value_pos hm),
    by exact_mod_cast Int.lt_zpow_succ_log_self (b := 10) (by decide) m.value⟩

/-! ### Seventeen digits -/

/-- **A grid of seventeen digits always has a multiple that rounds to a magnitude**: its step is
less than the distance of the two ends. -/
theorem exists_encloses {k : Int} (hm : m.mantissa ≠ 0) (hk : 10 ^ k * 10 ^ 16 ≤ m.value) :
    ∃ digits : Nat, m.Encloses (digits * 10 ^ k) := by
  obtain ⟨hle, hlt⟩ := m.below_spec k
  rw [← mul_le_mul_iff_left₀ unit_pos, value_mul_unit] at hk hle
  rw [← mul_lt_mul_iff_left₀ unit_pos, value_mul_unit, Nat.cast_succ] at hlt
  have hMax : (m.units + 2 ^ m.exponent : ℚ) ≤ 2 ^ 53 * 2 ^ m.exponent := by
    exact_mod_cast m.units_add_le_two_pow
  have hp : (0 : ℚ) < 2 ^ m.exponent := by positivity
  have hLow := low4_cast hm
  have hHigh := m.high4_cast
  split at hLow
  · -- under a power of two the step is less than half of the upper part
    rename_i narrow
    have hUnits : (m.units : ℚ) = 2 ^ 52 * 2 ^ m.exponent := by
      rw [units_eq, narrow.1]
      push_cast
      rfl
    refine ⟨m.below k + 1, Encloses.of_lt ?_ ?_⟩
    · rw [Nat.cast_succ]; linarith
    · rw [Nat.cast_succ]; linarith
  · by_cases hNear : 2 * (m.units - m.below k * 10 ^ k * unit) < (2 ^ m.exponent : ℚ)
    · refine ⟨m.below k, Encloses.of_lt ?_ ?_⟩
      · linarith
      · linarith
    · refine ⟨m.below k + 1, Encloses.of_lt ?_ ?_⟩
      · rw [Nat.cast_succ]; linarith
      · rw [Nat.cast_succ]; linarith

/-! ### The search -/

-- Kept closed from here on: opening it computes powers of hundreds of digits.
attribute [local irreducible] decimalExponent

theorem searchGrids_succ (m : Magnitude) (count fuel : Nat) :
    m.searchGrids count (fuel + 1) =
      match m.onGrid? (m.decimalExponent - count + 1) with
      | some digits => (digits, m.decimalExponent - count + 1)
      | none => m.searchGrids (count + 1) fuel :=
  rfl

theorem searchGrids_spec {last : Nat}
    (hLast : ∃ d, m.onGrid? (m.decimalExponent - last + 1) = some d) :
    ∀ (fuel count : Nat), count ≤ last → last < count + fuel →
      ∃ c d, count ≤ c ∧ c ≤ last ∧
        m.searchGrids count fuel = (d, m.decimalExponent - c + 1) ∧
        m.onGrid? (m.decimalExponent - c + 1) = some d ∧
        ∀ c', count ≤ c' → c' < c → m.onGrid? (m.decimalExponent - c' + 1) = none := by
  intro fuel
  -- the fuel is enough for the grids from `count` to the last one
  induction fuel with
  | zero =>
    intro count hle hlt
    exact absurd hlt (Nat.not_lt.mpr hle)
  | succ fuel ih =>
    intro count hle hlt
    rw [searchGrids_succ]
    cases hGrid : m.onGrid? (m.decimalExponent - count + 1) with
    | some d =>
      refine ⟨count, d, Nat.le_refl _, hle, rfl, hGrid, ?_⟩
      intro c' h₁ h₂
      omega
    | none =>
      have hne : count ≠ last := by
        rintro rfl
        obtain ⟨d, hd⟩ := hLast
        rw [hGrid] at hd
        cases hd
      obtain ⟨c, d, hc, hcl, hSearch, hd, hNone⟩ := ih (count + 1) (by omega) (by omega)
      refine ⟨c, d, by omega, hcl, hSearch, hd, ?_⟩
      intro c' h₁ h₂
      rcases Nat.eq_or_lt_of_le h₁ with rfl | h₁
      · exact hGrid
      · exact hNone c' h₁ h₂

theorem exists_searchGrids (hm : m.mantissa ≠ 0) :
    ∃ c d : Nat, 1 ≤ c ∧ c ≤ 17 ∧ m.searchGrids 1 17 = (d, m.decimalExponent - c + 1) ∧
      m.onGrid? (m.decimalExponent - c + 1) = some d ∧
      ∀ c' : Nat, 1 ≤ c' → c' < c → m.onGrid? (m.decimalExponent - c' + 1) = none := by
  have hLast : ∃ d, m.onGrid? (m.decimalExponent - (17 : Nat) + 1) = some d := by
    have hStep : (10 : ℚ) ^ (m.decimalExponent - (17 : Nat) + 1) * 10 ^ 16 ≤ m.value := by
      rw [← zpow_natCast, ← zpow_add₀ (by norm_num)]
      rw [show m.decimalExponent - (17 : Nat) + 1 + (16 : Nat) = m.decimalExponent by omega]
      exact (zpow_decimalExponent hm).1
    obtain ⟨d, hd⟩ := exists_encloses hm hStep
    exact exists_onGrid? hm hd
  exact searchGrids_spec hLast 17 1 (by decide) (by decide)

/-! ### The digits -/

def decimal (digits : List Char) (exponent : Int) : ℚ :=
  decimalValue digits * 10 ^ (exponent - digits.length + 1)

theorem exists_append_zeros (cs : List Char) :
    (∃ z, cs = (cs.reverse.dropWhile (· == '0')).reverse ++ List.replicate z '0') ∧
      (cs.reverse.dropWhile (· == '0')).reverse.getLast? ≠ some '0' := by
  constructor
  · refine ⟨(cs.reverse.takeWhile (· == '0')).length, ?_⟩
    have hZeros : cs.reverse.takeWhile (· == '0')
        = List.replicate (cs.reverse.takeWhile (· == '0')).length '0' := by
      apply List.eq_replicate_of_mem
      intro c hc
      exact eq_of_beq (List.mem_takeWhile_imp (p := (· == '0')) hc)
    rw [← List.reverse_replicate, ← hZeros, ← List.reverse_append, List.takeWhile_append_dropWhile,
      List.reverse_reverse]
  · rw [List.getLast?_reverse]
    intro hLast
    have hNot := List.head?_dropWhile_not (· == '0') cs.reverse
    rw [hLast] at hNot
    cases hNot

attribute [local irreducible] searchGrids in
theorem shortest_eq (m : Magnitude) :
    m.shortest = (((Nat.toDigits 10 (m.searchGrids 1 17).1).reverse.dropWhile (· == '0')).reverse,
      (m.searchGrids 1 17).2 + (Nat.toDigits 10 (m.searchGrids 1 17).1).length - 1) :=
  rfl

/-- What the shortest decimal is: digits found on the first grid that is not passed over,
without the zeros at their end. -/
theorem exists_shortest (hm : m.mantissa ≠ 0) :
    ∃ c d z : Nat, 1 ≤ c ∧ c ≤ 17 ∧ m.onGrid? (m.decimalExponent - c + 1) = some d ∧
      (∀ c' : Nat, 1 ≤ c' → c' < c → m.onGrid? (m.decimalExponent - c' + 1) = none) ∧
      Nat.toDigits 10 d = m.shortest.1 ++ List.replicate z '0' ∧
      m.shortest.2 - m.shortest.1.length + 1 = m.decimalExponent - c + 1 + z := by
  obtain ⟨c, d, hc, hc17, hSearch, hd, hNone⟩ := exists_searchGrids hm
  obtain ⟨⟨z, hz⟩, -⟩ := exists_append_zeros (Nat.toDigits 10 d)
  have hShort := m.shortest_eq
  rw [hSearch] at hShort
  refine ⟨c, d, z, hc, hc17, hd, hNone, ?_, ?_⟩
  · rw [hShort]
    exact hz
  · rw [hShort]
    have hLen := congrArg List.length hz
    rw [List.length_append, List.length_replicate] at hLen
    dsimp only
    omega

theorem decimal_eq {d z : Nat} {ds : List Char} {e k : Int}
    (hText : Nat.toDigits 10 d = ds ++ List.replicate z '0') (he : e - ds.length + 1 = k + z) :
    decimal ds e = d * 10 ^ k := by
  have hd : d = decimalValue ds * 10 ^ z := by
    have hValue := decimalValue_toDigits d
    rw [hText, decimalValue_append, List.length_replicate, decimalValue_replicate_zero] at hValue
    exact hValue.symm
  rw [decimal, he, hd, zpow_add₀ (by norm_num), zpow_natCast]
  push_cast
  ring

theorem log_decimal {ds : List Char} (h : Leads ds) (e : Int) : Int.log 10 (decimal ds e) = e := by
  have hLen : 0 < ds.length := List.length_pos_of_ne_nil h.ne_nil
  have hStep : (0 : ℚ) < 10 ^ (e - ds.length + 1) := zpow_pos (by norm_num) _
  have hLow : ((10 ^ (ds.length - 1) : Nat) : ℚ) ≤ decimalValue ds :=
    Nat.cast_le.mpr h.le_decimalValue
  have hHigh : (decimalValue ds : ℚ) < (10 ^ ds.length : Nat) :=
    Nat.cast_lt.mpr (decimalValue_lt h.isDigit)
  rw [Nat.cast_pow, Nat.cast_ofNat, ← zpow_natCast] at hLow hHigh
  apply log_eq_of_le_of_lt
  · calc (10 : ℚ) ^ e = 10 ^ ((ds.length - 1 : Nat) : Int) * 10 ^ (e - ds.length + 1) := by
          rw [← zpow_add₀ (by norm_num)]
          congr 1
          omega
      _ ≤ decimal ds e := mul_le_mul_of_nonneg_right hLow hStep.le
  · calc decimal ds e < 10 ^ (ds.length : Int) * 10 ^ (e - ds.length + 1) :=
          mul_lt_mul_of_pos_right hHigh hStep
      _ = 10 ^ (e + 1) := by
          rw [← zpow_add₀ (by norm_num)]
          congr 1
          omega

/-- **The shortest decimal of a magnitude rounds to it.** -/
theorem encloses_shortest (hm : m.mantissa ≠ 0) :
    m.Encloses (decimal m.shortest.1 m.shortest.2) := by
  obtain ⟨c, d, z, -, -, hd, -, hText, he⟩ := exists_shortest hm
  rw [decimal_eq hText he]
  exact encloses_of_onGrid? hd

theorem leads_shortest (hm : m.mantissa ≠ 0) : Leads m.shortest.1 := by
  obtain ⟨c, d, z, -, -, hd, -, hText, -⟩ := exists_shortest hm
  have hd0 : d ≠ 0 := by
    rintro rfl
    have := (encloses_of_onGrid? hd).pos hm
    rw [Nat.cast_zero, zero_mul] at this
    exact lt_irrefl _ this
  have hLeads := leads_toDigits hd0
  have hne : m.shortest.1 ≠ [] := by
    intro hNil
    rw [hNil, List.nil_append] at hText
    have hValue := decimalValue_toDigits d
    rw [hText, decimalValue_replicate_zero] at hValue
    exact hd0 hValue.symm
  rw [hText] at hLeads
  refine ⟨fun c hc => hLeads.isDigit c (List.mem_append_left _ hc), hne, ?_⟩
  have hHead := hLeads.head
  rwa [List.head?_append_of_ne_nil _ hne] at hHead

/-! ### Whole numbers -/

/-- The digits of a whole number are found on the grid of the whole numbers or on one that is
wider. -/
theorem exists_shortest_of_whole {n : Nat} (hm : m.mantissa ≠ 0) (h : m.value = n) :
    ∃ d z k : Nat, m.onGrid? k = some d ∧ (k = 0 → d = n) ∧
      Nat.toDigits 10 d = m.shortest.1 ++ List.replicate z '0' ∧
      m.shortest.2 - m.shortest.1.length + 1 = (k : Int) + z := by
  obtain ⟨c, d, z, -, -, hd, hNone, hText, he⟩ := exists_shortest hm
  have hGrid : m.onGrid? 0 = some n := onGrid?_of_value_eq hm (by rw [h, zpow_zero, mul_one])
  have hPos : 0 < n := by
    have := value_pos hm
    rw [h] at this
    exact_mod_cast this
  have hE : 0 ≤ m.decimalExponent := by
    rw [decimalExponent_eq hm, ← Int.zpow_le_iff_le_log (by norm_num) (value_pos hm), h, zpow_zero]
    exact_mod_cast hPos
  obtain ⟨e, hE⟩ := Int.eq_ofNat_of_zero_le hE
  have hc : c ≤ e + 1 := by
    by_contra hlt
    have hPassed := hNone (e + 1) (by omega) (by omega)
    rw [hE, show (e : Int) - (e + 1 : Nat) + 1 = 0 by omega, hGrid] at hPassed
    cases hPassed
  have hk : m.decimalExponent - c + 1 = (e + 1 - c : Nat) := by omega
  rw [hk] at hd he
  refine ⟨d, z, e + 1 - c, hd, ?_, hText, he⟩
  intro h0
  rw [h0, Int.ofNat_zero, hGrid] at hd
  exact (Option.some.inj hd).symm

theorem length_shortest_le {n : Nat} (hm : m.mantissa ≠ 0) (h : m.value = n) :
    (m.shortest.1.length : Int) ≤ m.shortest.2 + 1 := by
  obtain ⟨d, z, k, -, -, -, he⟩ := exists_shortest_of_whole hm h
  omega

theorem le_low4_add (m : Magnitude) : 4 * m.units ≤ m.low4 + 2 * 2 ^ m.exponent := by
  rw [low4_eq]
  split <;> omega

theorem two_pow_le_unitsPerOne {e : Nat} (h : e ≤ 1074) : 2 ^ e ≤ unitsPerOne := by
  unfold unitsPerOne
  generalize 1074 = n at *
  exact Nat.pow_le_pow_right (by decide) h

theorem unitsPerOne_le_two_pow {e : Nat} (h : 1074 < e) : 2 * unitsPerOne ≤ 2 ^ e := by
  unfold unitsPerOne
  generalize 1074 = n at *
  exact two_mul_two_pow_le h

/-- Up to `2 ^ 53` no other whole number rounds to a whole number, and only its neighbours
round to `2 ^ 53`. -/
theorem Encloses.eq_or_near {n x : Nat} (hx : m.Encloses x) (h : m.value = n) (hn : n ≤ 2 ^ 53) :
    x = n ∨ n = 2 ^ 53 ∧ x ≤ n + 1 ∧ n ≤ x + 1 := by
  have hUnits : m.units = n * unitsPerOne := by
    have := m.value_mul_unit
    rw [h, unit] at this
    exact_mod_cast this.symm
  have hHigh : 4 * (x * unitsPerOne) ≤ 4 * m.units + 2 * 2 ^ m.exponent := by
    have := hx.high
    rw [unit] at this
    exact_mod_cast this
  have hLow : 4 * m.units ≤ 4 * (x * unitsPerOne) + 2 * 2 ^ m.exponent := by
    have hLow := hx.low
    rw [unit] at hLow
    have hLow' : m.low4 ≤ 4 * (x * unitsPerOne) := by exact_mod_cast hLow
    have := m.le_low4_add
    omega
  rw [hUnits] at hHigh hLow
  have hOne := unitsPerOne_pos
  have step : ∀ a b, a < b → a * unitsPerOne + unitsPerOne ≤ b * unitsPerOne := by
    intro a b hab
    rw [← Nat.succ_mul]
    exact Nat.mul_le_mul_right _ hab
  -- with these exponents magnitudes are more than one apart, and the least of them is `2 ^ 53`
  rcases Nat.lt_or_ge 1074 m.exponent with he | he
  · right
    have hp := unitsPerOne_le_two_pow he
    have hFull : 2 ^ 52 * 2 ^ m.exponent ≤ n * unitsPerOne := by
      rw [← hUnits]
      exact Nat.mul_le_mul_right _ (two_pow_le_mantissa (by omega))
    have hMax := Nat.mul_le_mul_right unitsPerOne hn
    have hn' : n = 2 ^ 53 := by
      by_contra hne
      have := step n (2 ^ 53) (by omega)
      omega
    refine ⟨hn', ?_, ?_⟩
    · by_contra hlt
      have := step n (n + 1) (by omega)
      have := step (n + 1) x (by omega)
      omega
    · by_contra hlt
      have := step x (x + 1) (by omega)
      have := step (x + 1) n (by omega)
      omega
  · left
    have hp := two_pow_le_unitsPerOne he
    rcases Nat.lt_trichotomy x n with hlt | hEq | hlt
    · have := step x n hlt
      omega
    · exact hEq
    · have := step n x hlt
      omega

/-- **Up to `2 ^ 53` the digits of a whole number are its own.** -/
theorem decimal_shortest_of_whole {n : Nat} (hm : m.mantissa ≠ 0) (h : m.value = n)
    (hn : n ≤ 2 ^ 53) : decimal m.shortest.1 m.shortest.2 = n := by
  obtain ⟨d, z, k, hd, hZero, hText, he⟩ := exists_shortest_of_whole hm h
  have hx := encloses_of_onGrid? hd
  rw [decimal_eq hText he]
  rw [zpow_natCast] at hx ⊢
  have hNat : (d : ℚ) * 10 ^ k = (d * 10 ^ k : Nat) := by push_cast; rfl
  rw [hNat] at hx ⊢
  congr 1
  rcases hx.eq_or_near h hn with hEq | ⟨hMax, hAbove, hBelow⟩
  · exact hEq
  · by_cases hk : k = 0
    · rw [hZero hk, hk, Nat.pow_zero, Nat.mul_one]
    · -- a multiple of ten next to `2 ^ 53`
      obtain ⟨j, rfl⟩ : ∃ j, k = j + 1 := ⟨k - 1, by omega⟩
      have hTen : d * 10 ^ (j + 1) = 10 * (d * 10 ^ j) := by rw [Nat.pow_succ]; ring
      rw [hTen] at hAbove hBelow ⊢
      omega

/-! ### No shorter decimal -/

theorem getLast?_shortest (m : Magnitude) : m.shortest.1.getLast? ≠ some '0' := by
  rw [shortest_eq]
  exact (exists_append_zeros _).2

theorem le_of_onGrid? {c d : Nat} (hm : m.mantissa ≠ 0)
    (h : m.onGrid? (m.decimalExponent - c + 1) = some d) : d ≤ 10 ^ c := by
  obtain ⟨hle, -⟩ := m.below_spec (m.decimalExponent - c + 1)
  have hStep : (0 : ℚ) < 10 ^ (m.decimalExponent - c + 1) := zpow_pos (by norm_num) _
  have hBelow : m.below (m.decimalExponent - c + 1) < 10 ^ c := by
    have hlt : (m.below (m.decimalExponent - c + 1) : ℚ) * 10 ^ (m.decimalExponent - c + 1)
        < 10 ^ (c : Int) * 10 ^ (m.decimalExponent - c + 1) := by
      rw [← zpow_add₀ (by norm_num), show (c : Int) + (m.decimalExponent - c + 1)
        = m.decimalExponent + 1 by omega]
      exact lt_of_le_of_lt hle (zpow_decimalExponent hm).2
    rw [mul_lt_mul_iff_left₀ hStep, zpow_natCast] at hlt
    exact_mod_cast hlt
  rw [onGrid?_eq] at h
  split at h
  · cases h; omega
  · split at h
    · cases h; omega
    · cases h

theorem length_le_of_append_zeros {d c z : Nat} {ds : List Char} (hc : 1 ≤ c) (hd : d ≤ 10 ^ c)
    (hText : Nat.toDigits 10 d = ds ++ List.replicate z '0') (hLast : ds.getLast? ≠ some '0') :
    ds.length ≤ c := by
  rcases Nat.lt_or_eq_of_le hd with hlt | rfl
  · have hLen := (Nat.length_toDigits_le_iff (by decide) hc).mpr hlt
    rw [hText, List.length_append] at hLen
    omega
  · have hOne : Nat.toDigits 10 (10 ^ c) = '1' :: List.replicate c '0' := by
      have hZeros := toDigits_append Nat.one_pos (isDigit_of_mem_replicate (n := c))
      rw [List.length_replicate, decimalValue_replicate_zero, Nat.one_mul, Nat.add_zero] at hZeros
      exact hZeros.symm
    rw [hOne] at hText
    cases ds with
    | nil => exact Nat.zero_le _
    | cons a ds =>
      have hTail : ds = List.replicate ds.length '0' :=
        (List.append_eq_replicate_iff.mp (List.cons.inj hText).2.symm).2.1
      have hNil : ds.length = 0 := by
        by_contra hne
        apply hLast
        rw [List.getLast?_cons, hTail, List.getLast?_replicate, if_neg hne]
        rfl
      rw [List.length_cons, hNil]
      exact hc

/-- **A decimal that rounds to a magnitude has no fewer digits than the shortest one.** -/
theorem length_shortest_le_of_isNearest {d : Nat} {k : Int} (hm : m.mantissa ≠ 0)
    (hNear : m.IsNearest (d * 10 ^ k)) : m.shortest.1.length ≤ decimalLength d := by
  have h := (isNearest_iff_encloses (decimal_nonneg d k)).mp hNear
  obtain ⟨c, found, z, hc, -, hFound, hNone, hText, -⟩ := exists_shortest hm
  apply (length_le_of_append_zeros hc (le_of_onGrid? hm hFound) hText m.getLast?_shortest).trans
  have hLen : 0 < decimalLength d := Nat.length_toDigits_pos
  have hd : d < 10 ^ decimalLength d :=
    (Nat.length_toDigits_le_iff (by decide) hLen).mp (Nat.le_refl _)
  generalize decimalLength d = l at *
  by_contra hlt
  have hPassed := hNone l hLen (by omega)
  -- the grid of as many digits has the decimal on it, or else one between it and the magnitude
  have hMultiple : ∃ j : Nat, m.Encloses (j * 10 ^ (m.decimalExponent - l + 1)) := by
    by_cases hk : m.decimalExponent - l + 1 ≤ k
    · obtain ⟨i, hi⟩ := Int.eq_ofNat_of_zero_le (Int.sub_nonneg.mpr hk)
      refine ⟨d * 10 ^ i, ?_⟩
      have hEq : ((d * 10 ^ i : Nat) : ℚ) * 10 ^ (m.decimalExponent - l + 1) = d * 10 ^ k := by
        rw [Nat.cast_mul, Nat.cast_pow, Nat.cast_ofNat, mul_assoc, ← zpow_natCast,
          ← zpow_add₀ (by norm_num), ← hi, sub_add_cancel]
      rw [hEq]
      exact h
    · refine ⟨10 ^ (l - 1), ?_⟩
      have hEq : ((10 ^ (l - 1) : Nat) : ℚ) * 10 ^ (m.decimalExponent - l + 1)
          = 10 ^ m.decimalExponent := by
        rw [Nat.cast_pow, Nat.cast_ofNat, ← zpow_natCast, ← zpow_add₀ (by norm_num)]
        congr 1
        omega
      rw [hEq]
      apply h.of_between (encloses_value hm) _ (zpow_decimalExponent hm).1
      calc (d * 10 ^ k : ℚ) ≤ 10 ^ (l : Int) * 10 ^ k := by
            apply mul_le_mul_of_nonneg_right _ (zpow_nonneg (by norm_num) k)
            rw [zpow_natCast]
            exact_mod_cast hd.le
        _ = 10 ^ ((l : Int) + k) := by rw [zpow_add₀ (by norm_num)]
        _ ≤ 10 ^ m.decimalExponent := zpow_le_zpow_right₀ (by norm_num) (by omega)
  obtain ⟨j, hj⟩ := hMultiple
  obtain ⟨d', hd'⟩ := exists_onGrid? hm hj
  rw [hd'] at hPassed
  cases hPassed

theorem exists_fewest_digits (hm : m.mantissa ≠ 0) :
    ∃ (digits : Nat) (k : Int), decimal m.shortest.1 m.shortest.2 = digits * 10 ^ k ∧
      ∀ (others : Nat) (l : Int), m.IsNearest (others * 10 ^ l) →
        decimalLength digits ≤ decimalLength others := by
  refine ⟨decimalValue m.shortest.1, _, rfl, fun others l hOthers => ?_⟩
  have hLength : decimalLength (decimalValue m.shortest.1) = m.shortest.1.length :=
    congrArg List.length (leads_shortest hm).toDigits
  rw [hLength]
  exact length_shortest_le_of_isNearest hm hOthers

end Stencil.Magnitude
