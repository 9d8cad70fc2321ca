import Stencil.Proofs.Document.Numeral
import Stencil.Proofs.Number.Shortest

/-!
# Numerals of magnitudes

The digits of a magnitude are laid out in one of three ways: with an exponent, with a point, or
as a whole number.

* `Numeral.ofDigits`: the numeral with given digits (`Numeral.value_ofDigits`,
  `Numeral.wellFormed_ofDigits`).
* `Magnitude.text_eq_written`: the text of a magnitude is such a numeral.
* `Magnitude.text_of_whole`: the text of a whole number up to `2 ^ 53`.
* `Magnitude.isNearest_numeral`: the numeral rounds to the magnitude.
-/

namespace Stencil

open Text

/-! ## Layouts -/

namespace Numeral

def exponentPart? (e : Int) : Option (Bool × List Char) :=
  if 21 ≤ e ∨ e ≤ -7 then some (decide (e < 0), Nat.toDigits 10 e.natAbs) else none

/-- The numeral with the given digits, of which the first one has the given exponent. -/
def ofDigits (negative : Bool) (ds : List Char) (e : Int) : Numeral :=
  if 21 ≤ e ∨ e ≤ -7 then
    ⟨negative, ds.take 1, if ds.length ≤ 1 then none else some (ds.drop 1), exponentPart? e⟩
  else if e < 0 then ⟨negative, ['0'], some (List.replicate ((-e).toNat - 1) '0' ++ ds), none⟩
  else if ds.length ≤ e.toNat + 1 then
    ⟨negative, ds ++ List.replicate (e.toNat + 1 - ds.length) '0', none, none⟩
  else ⟨negative, ds.take (e.toNat + 1), some (ds.drop (e.toNat + 1)), none⟩

theorem negative_ofDigits (negative : Bool) (ds : List Char) (e : Int) :
    (ofDigits negative ds e).negative = negative := by
  rw [ofDigits]
  split_ifs <;> rfl

theorem exponent_ofDigits (negative : Bool) (ds : List Char) (e : Int) :
    (ofDigits negative ds e).exponent = exponentPart? e := by
  rw [ofDigits]
  split
  · rfl
  · rename_i h
    rw [exponentPart?, if_neg h]
    split
    · rfl
    · split
      · rfl
      · rfl

theorem length_whole_ofDigits (negative : Bool) {ds : List Char} {e : Int} (hds : ds ≠ [])
    (he : (ofDigits negative ds e).exponent ≠ none) :
    (ofDigits negative ds e).whole.length = 1 := by
  rw [exponent_ofDigits, exponentPart?] at he
  have hExp : 21 ≤ e ∨ e ≤ -7 := by
    by_contra h
    exact he (if_neg h)
  have hPos := List.length_pos_of_ne_nil hds
  rw [ofDigits, if_pos hExp]
  show (ds.take 1).length = 1
  rw [List.length_take]
  omega

theorem ofDigits_of_le (negative : Bool) {ds : List Char} {e : Int} (hds : ds ≠ [])
    (hLen : (ds.length : Int) ≤ e + 1) (he : e < 21) :
    ofDigits negative ds e =
      ⟨negative, ds ++ List.replicate (e.toNat + 1 - ds.length) '0', none, none⟩ := by
  have hPos := List.length_pos_of_ne_nil hds
  rw [ofDigits, if_neg (by omega), if_neg (by omega), if_pos (by omega)]

theorem wellFormed_ofDigits (negative : Bool) {ds : List Char} (h : Leads ds) (e : Int) :
    (ofDigits negative ds e).WellFormed := by
  have hDrop : ∀ n, ∀ d ∈ ds.drop n, d.isDigit = true :=
    fun n d hd => h.isDigit d (List.mem_of_mem_drop hd)
  rw [ofDigits]
  split
  · refine ⟨.inr (h.take Nat.one_pos), ?_, ?_⟩
    · intro digits hSome
      obtain ⟨hLen, hDigits⟩ := Option.ite_none_left_eq_some.mp hSome
      cases hDigits
      exact ⟨mt List.drop_eq_nil_iff.mp hLen, hDrop 1⟩
    · intro sign digits hSome
      obtain ⟨-, hPair⟩ := Option.ite_none_right_eq_some.mp hSome
      cases hPair
      exact ⟨Nat.toDigits_ne_nil, isDigit_of_mem_toDigits⟩
  · split
    · refine ⟨.inl rfl, ?_, fun _ _ hSome => nomatch hSome⟩
      intro digits hSome
      cases hSome
      refine ⟨fun hNil => h.ne_nil (List.append_eq_nil_iff.mp hNil).2, fun d hd => ?_⟩
      rcases List.mem_append.mp hd with hd | hd
      · exact isDigit_of_mem_replicate d hd
      · exact h.isDigit d hd
    · split
      · refine ⟨.inr (h.append isDigit_of_mem_replicate), ?_, fun _ _ hSome => nomatch hSome⟩
        intro digits hSome
        cases hSome
      · rename_i hLen
        refine ⟨.inr (h.take (Nat.succ_pos _)), ?_, fun _ _ hSome => nomatch hSome⟩
        intro digits hSome
        cases hSome
        exact ⟨mt List.drop_eq_nil_iff.mp hLen, hDrop _⟩

theorem exponentValue_ofDigits (negative : Bool) (ds : List Char) (e : Int) :
    (ofDigits negative ds e).exponentValue = if 21 ≤ e ∨ e ≤ -7 then e else 0 := by
  rw [exponentValue, exponent_ofDigits, exponentPart?]
  by_cases h : 21 ≤ e ∨ e ≤ -7
  · rw [if_pos h, if_pos h]
    show (if decide (e < 0) then -(decimalValue (Nat.toDigits 10 e.natAbs) : Int)
      else decimalValue (Nat.toDigits 10 e.natAbs)) = e
    rw [decimalValue_toDigits]
    by_cases he : e < 0
    · rw [decide_eq_true he, if_pos rfl]
      omega
    · rw [decide_eq_false he, if_neg Bool.false_ne_true]
      omega
  · rw [if_neg h, if_neg h]

theorem getD_fraction (ds : List Char) :
    (if ds.length ≤ 1 then none else some (ds.drop 1)).getD [] = ds.drop 1 := by
  split
  · rename_i h
    rw [List.drop_of_length_le h]
    rfl
  · rfl

/-- **The numeral stands for the number with its digits.** -/
theorem value_ofDigits (negative : Bool) {ds : List Char} (hds : ds ≠ []) (e : Int) :
    (ofDigits negative ds e).value = (if negative then -1 else 1) * Magnitude.decimal ds e := by
  have hLen : 0 < ds.length := List.length_pos_of_ne_nil hds
  rw [value, exponentValue_ofDigits, negative_ofDigits, Magnitude.decimal]
  congr 1
  rw [ofDigits]
  split
  · rw [getD_fraction, List.take_append_drop, List.length_drop]
    congr 2
    omega
  · split
    · -- the point stands before all digits
      rename_i he
      have hZeros : decimalValue ('0' :: (List.replicate ((-e).toNat - 1) '0' ++ ds))
          = decimalValue ds := by
        rw [show '0' :: (List.replicate ((-e).toNat - 1) '0' ++ ds)
            = List.replicate ((-e).toNat - 1 + 1) '0' ++ ds from rfl,
          decimalValue_append, decimalValue_replicate_zero, Nat.zero_mul, Nat.zero_add]
      show (decimalValue ('0' :: (List.replicate ((-e).toNat - 1) '0' ++ ds)) : ℚ)
        * 10 ^ (0 - ((List.replicate ((-e).toNat - 1) '0' ++ ds).length : Int)) = _
      rw [hZeros, List.length_append, List.length_replicate]
      congr 2
      omega
    · split
      · -- zeros take the place of an exponent
        show (decimalValue (ds ++ List.replicate (e.toNat + 1 - ds.length) '0' ++ []) : ℚ)
          * 10 ^ (0 - ((0 : Nat) : Int)) = _
        rw [List.append_nil, decimalValue_append, decimalValue_replicate_zero,
          List.length_replicate, Nat.add_zero, Nat.cast_mul, Nat.cast_pow, Nat.cast_ofNat,
          mul_assoc, ← zpow_natCast, ← zpow_add₀ (by norm_num)]
        congr 2
        omega
      · -- the point stands between the digits
        show (decimalValue (ds.take (e.toNat + 1) ++ ds.drop (e.toNat + 1)) : ℚ)
          * 10 ^ (0 - ((ds.drop (e.toNat + 1)).length : Int)) = _
        rw [List.take_append_drop, List.length_drop]
        congr 2
        omega

theorem value_whole (negative : Bool) (whole : List Char) :
    (⟨negative, whole, none, none⟩ : Numeral).value =
      (if negative then -1 else 1) * (decimalValue whole : ℚ) := by
  show _ * ((decimalValue (whole ++ []) : ℚ) * 10 ^ (0 - ((0 : Nat) : Int))) = _
  rw [List.append_nil, Nat.cast_zero, sub_zero, zpow_zero, mul_one]

theorem written_true (ds : List Char) (e : Int) :
    (ofDigits true ds e).written = '-' :: (ofDigits false ds e).written := by
  rw [ofDigits, ofDigits]
  split_ifs <;> rfl

theorem scientificText_eq {ds : List Char} (hds : ds ≠ []) :
    scientificText ds =
      ds.take 1 ++ fractionText (if ds.length ≤ 1 then none else some (ds.drop 1)) := by
  match ds with
  | [] => exact absurd rfl hds
  | [d] => rfl
  | d :: d' :: ds => rfl

theorem written_ofDigits_exponent {ds : List Char} (hds : ds ≠ []) {e : Int}
    (he : 21 ≤ e ∨ e ≤ -7) :
    (ofDigits false ds e).written =
      scientificText ds ++ 'e' :: (if decide (e < 0) then '-' else '+') ::
        Nat.toDigits 10 e.natAbs := by
  rw [ofDigits, if_pos he, scientificText_eq hds, exponentPart?, if_pos he, List.append_assoc]
  rfl

theorem positionalText_eq {ds : List Char} {e : Int} (he : ¬ (21 ≤ e ∨ e ≤ -7)) :
    positionalText ds e = (ofDigits false ds e).written := by
  rw [positionalText, ofDigits, if_neg he]
  split
  · show _ = '0' :: '.' :: (List.replicate ((-e).toNat - 1) '0' ++ ds) ++ []
    rw [List.append_nil]
  · dsimp only
    split
    · show _ = ds ++ List.replicate (e.toNat + 1 - ds.length) '0' ++ []
      rw [List.append_nil]
    · show _ = ds.take (e.toNat + 1) ++ ('.' :: ds.drop (e.toNat + 1) ++ [])
      rw [List.append_nil]

end Numeral

namespace Magnitude

-- Kept closed: opening it computes powers of hundreds of digits.
attribute [local irreducible] shortest

theorem text_eq (m : Magnitude) :
    m.text =
      if 21 ≤ m.shortest.2 then
        scientificText m.shortest.1 ++ 'e' :: '+' :: Nat.toDigits 10 m.shortest.2.toNat
      else if m.shortest.2 ≤ -7 then
        scientificText m.shortest.1 ++ 'e' :: '-' :: Nat.toDigits 10 (-m.shortest.2).toNat
      else positionalText m.shortest.1 m.shortest.2 :=
  rfl

/-- **The text of a magnitude is the numeral with its digits.** -/
theorem text_eq_written {m : Magnitude} (hm : m.mantissa ≠ 0) :
    m.text = (Numeral.ofDigits false m.shortest.1 m.shortest.2).written := by
  have hds := (leads_shortest hm).ne_nil
  rw [text_eq]
  generalize m.shortest.1 = ds at *
  generalize m.shortest.2 = e
  split
  · rename_i he
    rw [Numeral.written_ofDigits_exponent hds (.inl he), decide_eq_false (by omega),
      show e.toNat = e.natAbs by omega]
    rfl
  · split
    · rename_i he
      rw [Numeral.written_ofDigits_exponent hds (.inr he), decide_eq_true (by omega),
        show (-e).toNat = e.natAbs by omega]
      rfl
    · exact Numeral.positionalText_eq (by omega)

variable {m : Magnitude}

theorem decimal_pos (hm : m.mantissa ≠ 0) : 0 < decimal m.shortest.1 m.shortest.2 :=
  (encloses_shortest hm).pos hm

theorem shortest_lt (hm : m.mantissa ≠ 0) (h : m.value < 10 ^ 21) : m.shortest.2 < 21 := by
  obtain ⟨limit, hLimit⟩ := exists_value_eq (a := 5 ^ 21) (b := 21) (by decide) (by decide)
  have hTen : limit.value = 10 ^ 21 := by
    rw [hLimit]
    norm_num
  have hlt := (encloses_shortest hm).lt_value (hTen ▸ h)
  rw [hTen] at hlt
  rw [← log_decimal (leads_shortest hm) m.shortest.2]
  apply (Int.lt_zpow_iff_log_lt (by decide) (decimal_pos hm)).mp
  exact_mod_cast hlt

theorem ofDigits_shortest_of_whole (negative : Bool) {n : Nat} (hm : m.mantissa ≠ 0)
    (h : m.value = n) (hn : m.value < 10 ^ 21) :
    Numeral.ofDigits negative m.shortest.1 m.shortest.2 = ⟨negative, m.shortest.1 ++
      List.replicate (m.shortest.2.toNat + 1 - m.shortest.1.length) '0', none, none⟩ :=
  Numeral.ofDigits_of_le negative (leads_shortest hm).ne_nil (length_shortest_le hm h)
    (shortest_lt hm hn)

/-- **Up to `2 ^ 53` a whole number is written with its own digits.** -/
theorem text_of_whole {n : Nat} (hm : m.mantissa ≠ 0) (h : m.value = n) (hn : n ≤ 2 ^ 53) :
    m.text = Nat.toDigits 10 n := by
  have hlt : m.value < 10 ^ 21 := by
    rw [h]
    exact_mod_cast lt_of_le_of_lt hn (by decide : 2 ^ 53 < 10 ^ 21)
  have hLeads := leads_shortest hm
  have hLayout := ofDigits_shortest_of_whole false hm h hlt
  have hValue := Numeral.value_ofDigits false hLeads.ne_nil m.shortest.2
  rw [decimal_shortest_of_whole hm h hn, hLayout, Numeral.value_whole] at hValue
  rw [text_eq_written hm, hLayout]
  set digits := m.shortest.1 ++ List.replicate (m.shortest.2.toNat + 1 - m.shortest.1.length) '0'
  have hDigits : Leads digits := hLeads.append isDigit_of_mem_replicate
  have hn' : decimalValue digits = n := by
    simpa using hValue
  show digits ++ [] = _
  rw [List.append_nil, ← hn', hDigits.toDigits]

/-- The numeral that a number with a magnitude and a sign is written as; zero has none. -/
def numeral (negative : Bool) (m : Magnitude) : Numeral :=
  if m.mantissa = 0 then ⟨false, ['0'], none, none⟩
  else Numeral.ofDigits negative m.shortest.1 m.shortest.2

theorem numeral_of_ne_zero (negative : Bool) (hm : m.mantissa ≠ 0) :
    m.numeral negative = Numeral.ofDigits negative m.shortest.1 m.shortest.2 := if_neg hm

theorem wellFormed_numeral (negative : Bool) (m : Magnitude) : (m.numeral negative).WellFormed := by
  rw [numeral]
  split
  · refine ⟨.inl rfl, ?_, fun _ _ hSome => nomatch hSome⟩
    intro digits hSome
    cases hSome
  · rename_i hm
    exact Numeral.wellFormed_ofDigits negative (leads_shortest hm) _

theorem value_numeral (negative : Bool) (hm : m.mantissa ≠ 0) :
    (m.numeral negative).value =
      (if negative then -1 else 1) * decimal m.shortest.1 m.shortest.2 := by
  rw [numeral_of_ne_zero negative hm, Numeral.value_ofDigits negative (leads_shortest hm).ne_nil]

theorem abs_value_numeral (negative : Bool) (hm : m.mantissa ≠ 0) :
    |(m.numeral negative).value| = decimal m.shortest.1 m.shortest.2 := by
  rw [value_numeral negative hm, Numeral.abs_sign_mul negative (decimal_pos hm).le]

theorem value_numeral_neg_iff (negative : Bool) (hm : m.mantissa ≠ 0) :
    negative = true ↔ (m.numeral negative).value < 0 := by
  have hPos := decimal_pos hm
  rw [value_numeral negative hm]
  cases negative
  · rw [if_neg Bool.false_ne_true, one_mul]
    exact ⟨fun h => (nomatch h), fun h => absurd h (not_lt.mpr hPos.le)⟩
  · rw [if_pos rfl, neg_one_mul]
    exact ⟨fun _ => neg_neg_of_pos hPos, fun _ => rfl⟩

/-- **The numeral rounds to the magnitude.** -/
theorem isNearest_numeral (negative : Bool) (m : Magnitude) :
    m.IsNearest |(m.numeral negative).value| := by
  by_cases hm : m.mantissa = 0
  · have hZero : |(m.numeral negative).value| = m.value := by
      rw [value_eq_zero hm, numeral, if_pos hm, Numeral.value_whole,
        show decimalValue ['0'] = 0 from rfl, Nat.cast_zero, mul_zero, abs_zero]
    rw [hZero]
    exact m.isNearest_value
  · rw [abs_value_numeral negative hm]
    exact (encloses_shortest hm).isNearest

end Magnitude

end Stencil
