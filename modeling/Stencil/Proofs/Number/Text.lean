import Stencil.Proofs.Escape
import Stencil.Proofs.Number.Exact
import Stencil.Proofs.Number.Layout

/-!
# Numbers in writing

* `Number.value?`: the rational number that a finite number stands for.
* `Number.readNumber_text`: the text of a finite number is read as its numeral.
* `Number.same_exact_numeral`: and the numeral as the number.
* `Number.same_of_text_eq`: numbers with the same text are equal.
* `Number.text_of_int`: integers up to `2 ^ 53` are written with their own digits.
* `Number.text_faithful`: all that the text of a number tells.
-/

namespace Stencil

open Text

/-! ## Numbers -/

namespace Number

def value? : Number → Option ℚ
  | nan => none
  | infinite _ => none
  | finite negative m => some ((if negative then -1 else 1) * m.value)

/-- **What a word of 64 bits stands for**: its sign, its fraction with a one before it unless the
exponent is 0, and its exponent. -/
theorem value?_ofBits {word : Nat} (h : word / 2 ^ 52 % 2 ^ 11 ≠ 2047) :
    (ofBits word).value? =
      some ((if word / 2 ^ 63 % 2 == 1 then -1 else 1) *
        if word / 2 ^ 52 % 2 ^ 11 = 0 then ((word % 2 ^ 52 : Nat) : ℚ) * 2 ^ (-1074 : Int)
        else ((2 ^ 52 + word % 2 ^ 52 : Nat) : ℚ) *
          2 ^ (((word / 2 ^ 52 % 2 ^ 11 : Nat) : Int) - 1075)) := by
  have hFraction : word % 2 ^ 52 < 2 ^ 52 := Nat.mod_lt _ (by decide)
  have hExponent : word / 2 ^ 52 % 2 ^ 11 < 2 ^ 11 := Nat.mod_lt _ (by decide)
  rw [ofBits]
  simp only [Nat.pow_eq]
  generalize word % 2 ^ 52 = fraction at *
  generalize word / 2 ^ 52 % 2 ^ 11 = exponent at *
  generalize (word / 2 ^ 63 % 2 == 1) = negative
  rw [if_neg h]
  split
  · obtain ⟨m, hm, hMant, hExp⟩ :=
      Magnitude.exists_make?_eq_some (a := fraction) (e := 0) (by omega) (by omega) (.inl rfl)
    rw [hm, ofMagnitude, value?, Magnitude.value_eq_zpow, hMant, hExp]
    rfl
  · obtain ⟨m, hm, hMant, hExp⟩ :=
      Magnitude.exists_make?_eq_some (a := 2 ^ 52 + fraction) (e := exponent - 1)
        (by omega) (by omega) (.inr (by omega))
    rw [hm, ofMagnitude, value?, Magnitude.value_eq_zpow, hMant, hExp,
      show ((exponent - 1 : Nat) : Int) - 1074 = (exponent : Int) - 1075 by omega]

/-- A number is what a rational number of its sign rounds to. -/
def IsNearest : Number → ℚ → Prop
  | nan, _ => False
  | infinite _, _ => False
  | finite negative m, x => m.IsNearest |x| ∧ (negative = true ↔ x < 0)

theorem toList_text (negative : Bool) (m : Magnitude) :
    (finite negative m).text.toList = (m.numeral negative).written := by
  rw [text, Magnitude.numeral]
  split
  · rfl
  · rename_i hm
    rw [String.toList_ofList, Magnitude.text_eq_written hm]
    cases negative
    · rfl
    · exact (Numeral.written_true _ _).symm

/-- **The text of a finite number is read as its numeral.** -/
theorem readNumber_text (negative : Bool) (m : Magnitude) :
    Json.readNumber (finite negative m).text.toList = .ok (m.numeral negative, []) := by
  rw [toList_text]
  exact Json.readNumber_written (m.wellFormed_numeral negative)

/-- **A number is got back from its numeral**, but for the sign of zero. -/
theorem same_exact_numeral (negative : Bool) (m : Magnitude) :
    (m.numeral negative).exact.same (finite negative m) = true := by
  rw [Numeral.exact_eq (m.isNearest_numeral negative), same, beq_self_eq_true, Bool.true_and,
    Bool.or_eq_true]
  by_cases hm : m.mantissa = 0
  · exact .inr (beq_iff_eq.mpr hm)
  · rw [Magnitude.numeral_of_ne_zero negative hm, Numeral.negative_ofDigits]
    exact .inl (beq_self_eq_true negative)

theorem same_of_text_eq {negative negative' : Bool} {m m' : Magnitude}
    (h : (finite negative m).text = (finite negative' m').text) :
    (finite negative m).same (finite negative' m') = true := by
  have hRead := readNumber_text negative m
  rw [h, readNumber_text negative' m'] at hRead
  have hNumeral : m'.numeral negative' = m.numeral negative := (Prod.mk.inj (Except.ok.inj hRead)).1
  have hm := m.isNearest_numeral negative
  rw [← hNumeral] at hm
  obtain rfl := hm.unique (m'.isNearest_numeral negative')
  rw [same, beq_self_eq_true, Bool.true_and, Bool.or_eq_true]
  by_cases hZero : m.mantissa = 0
  · exact .inr (beq_iff_eq.mpr hZero)
  · left
    have hSign : negative = true ↔ negative' = true := by
      rw [Magnitude.value_numeral_neg_iff negative hZero,
        Magnitude.value_numeral_neg_iff negative' hZero, hNumeral]
    rw [beq_iff_eq, Bool.eq_iff_iff]
    exact hSign

theorem value?_eq_some {n : Number} {x : ℚ} (h : n.value? = some x) :
    ∃ negative m, n = finite negative m ∧ x = (if negative then -1 else 1) * m.value := by
  cases n with
  | nan => cases h
  | infinite negative => cases h
  | finite negative m => exact ⟨negative, m, rfl, (Option.some.inj h).symm⟩

theorem abs_sign_mul_value (negative : Bool) (m : Magnitude) :
    |(if negative then -1 else 1) * m.value| = m.value :=
  Numeral.abs_sign_mul negative m.value_nonneg

/-- A numeral that a number of the given value is written as: its text is read as the numeral,
and the numeral as the number, which is nearest to it.  No decimal that the number is nearest to
has fewer digits.  The numeral has an exponent part from `10 ^ 21` on and below `10 ^ -6`, with one
digit before the point, and neither a point nor an exponent when it is a whole number before
that. -/
structure IsSpelled (n : Number) (x : ℚ) (numeral : Numeral) : Prop where
  text : n.text.toList = numeral.written
  reads : Json.readNumber n.text.toList = .ok (numeral, [])
  exact : numeral.exact.same n = true
  nearest : n.IsNearest numeral.value
  shortest : ∃ (digits : Nat) (k : Int), |numeral.value| = digits * 10 ^ k ∧
    ∀ (others : Nat) (l : Int) (y : ℚ), |y| = others * 10 ^ l → n.IsNearest y →
      decimalLength digits ≤ decimalLength others
  exponent : numeral.exponent = Numeral.exponentPart? (Int.log 10 |numeral.value|)
  mantissa : numeral.exponent ≠ none → numeral.whole.length = 1
  whole : ∀ k : Int, x = k → |x| < 10 ^ 21 → numeral.isWhole = true

theorem exists_isSpelled {n : Number} {x : ℚ} (h : n.value? = some x) (hx : x ≠ 0) :
    ∃ numeral, n.IsSpelled x numeral := by
  obtain ⟨negative, m, rfl, rfl⟩ := value?_eq_some h
  have hm : m.mantissa ≠ 0 := by
    intro h0
    apply hx
    rw [Magnitude.value_eq_zero h0, mul_zero]
  refine ⟨m.numeral negative, toList_text negative m, readNumber_text negative m,
    same_exact_numeral negative m,
    ⟨m.isNearest_numeral negative, Magnitude.value_numeral_neg_iff negative hm⟩, ?_, ?_, ?_, ?_⟩
  · obtain ⟨digits, k, hDigits, hFewest⟩ := Magnitude.exists_fewest_digits hm
    refine ⟨digits, k, (Magnitude.abs_value_numeral negative hm).trans hDigits, ?_⟩
    intro others l y hy hNear
    exact hFewest others l (hy ▸ hNear.1)
  · rw [Magnitude.abs_value_numeral negative hm,
      Magnitude.log_decimal (Magnitude.leads_shortest hm),
      Magnitude.numeral_of_ne_zero negative hm, Numeral.exponent_ofDigits]
  · rw [Magnitude.numeral_of_ne_zero negative hm]
    exact Numeral.length_whole_ofDigits negative (Magnitude.leads_shortest hm).ne_nil
  · intro k hk hlt
    rw [abs_sign_mul_value] at hlt
    have hWhole : m.value = k.natAbs := by
      rw [← abs_sign_mul_value negative, hk, Nat.cast_natAbs, Int.cast_abs]
    rw [Magnitude.numeral_of_ne_zero negative hm,
      Magnitude.ofDigits_shortest_of_whole negative hm hWhole hlt]
    rfl

theorem toString_int (k : Int) :
    toString k = String.ofList (if 0 ≤ k then Nat.toDigits 10 k.natAbs
      else '-' :: Nat.toDigits 10 k.natAbs) := by
  rw [Int.toString_eq_repr, Int.repr_eq_if]
  split
  · rename_i hk
    rw [Nat.repr_eq_ofList_toDigits, show k.toNat = k.natAbs by omega]
  · rename_i hk
    rw [Nat.repr_eq_ofList_toDigits, show (-k).toNat = k.natAbs by omega, ← String.toList_inj,
      String.toList_append]
    simp only [String.toList_ofList]
    rfl

theorem text_of_isZero {n : Number} (h : n.isZero = true) : n.text = "0" := by
  cases n with
  | nan => cases h
  | infinite negative => cases h
  | finite negative m => rw [text, if_pos (eq_of_beq h)]

theorem text_of_int {n : Number} {k : Int} (h : n.value? = some (k : ℚ)) (hk : |k| ≤ 2 ^ 53) :
    n.text = toString k := by
  obtain ⟨negative, m, rfl, hx⟩ := value?_eq_some h
  have hWhole : m.value = k.natAbs := by
    rw [← abs_sign_mul_value negative, ← hx, Nat.cast_natAbs, Int.cast_abs]
  have hle : k.natAbs ≤ 2 ^ 53 := by
    rw [Int.abs_eq_natAbs] at hk
    omega
  by_cases hm : m.mantissa = 0
  · have hk0 : k = 0 := by
      rw [Magnitude.value_eq_zero hm, mul_zero] at hx
      exact_mod_cast hx
    rw [hk0, text, if_pos hm]
    rfl
  · have hPos := Magnitude.value_pos hm
    rw [text, if_neg hm, toString_int, Magnitude.text_of_whole hm hWhole hle]
    cases negative
    · rw [if_neg Bool.false_ne_true, one_mul] at hx
      have hk0 : 0 ≤ k := by
        rw [← hx] at hPos
        exact_mod_cast hPos.le
      rw [if_pos hk0]
      rfl
    · rw [if_pos rfl, neg_one_mul] at hx
      have hk0 : k < 0 := by
        have hNeg : (k : ℚ) < 0 := by linarith
        exact_mod_cast hNeg
      rw [if_neg (not_le.mpr hk0)]
      rfl

theorem value?_ofNat {n : Nat} (hn : n ≤ 2 ^ 53) : (ofNat n).value? = some ((n : Int) : ℚ) := by
  obtain ⟨m, hm⟩ := Magnitude.exists_value_eq_natCast hn
  rw [ofNat, ofRatio, Magnitude.round?_of_value_eq hm]
  show some (1 * m.value) = _
  rw [one_mul, hm, Int.cast_natCast]

end Number

/-! ## The index of a loop -/

theorem isUnmarked_of_isDigit {c : Char} (h : c.isDigit = true) : reference? c = none := by
  obtain ⟨hlt, hChar⟩ := digitChar_of_isDigit h
  rw [← hChar]
  generalize c.toNat - 48 = n at *
  have hAll : ∀ n < 10, reference? n.digitChar = none := by decide
  exact hAll n hlt

theorem escape_toString (n : Nat) : escape (toString n) = toString n := by
  rw [escape_eq_self_iff, escaped?_eq_none_iff]
  intro c hc
  exact isUnmarked_of_isDigit (isDigit_of_mem_toDigits c (Nat.toList_repr ▸ hc))

theorem Scope.text_resolve_round_index {s : Scope} {p : Path} {itemName indexName : String}
    {item : Value} {index : Nat} (hp : p.segments = [indexName]) (hne : indexName ≠ itemName)
    (hIndex : index ≤ 2 ^ 53) :
    ((Scope.round s itemName item indexName index).resolve p).text = toString index := by
  have hLookup : (Scope.round s itemName item indexName index).lookup indexName
      = some (.number (.ofNat index)) := by
    rw [lookup, if_neg hne, if_pos rfl]
  rw [resolve, hp]
  dsimp only
  rw [hLookup]
  have hAbs : |(index : Int)| ≤ 2 ^ 53 := by
    rw [Nat.abs_cast]
    exact_mod_cast hIndex
  exact Number.text_of_int (Number.value?_ofNat hIndex) hAbs

/-- **The text of a number is faithful.** -/
theorem Number.text_faithful :
    (∀ (n : Number) (x : ℚ), n.value? = some x → x ≠ 0 → ∃ numeral, n.IsSpelled x numeral) ∧
      (∀ (n : Number) (k : Int), n.value? = some (k : ℚ) → |k| ≤ 2 ^ 53 → n.text = toString k) ∧
      (∀ (s : Scope) (p : Path) (itemName : String) (item : Value) (indexName : String)
        (index : Nat), p.segments = [indexName] → indexName ≠ itemName → index ≤ 2 ^ 53 →
          (Part.interpolate p).pieces (.round s itemName item indexName index) = [toString index] ∧
            (Part.escape p).pieces (.round s itemName item indexName index) = [toString index]) ∧
      (∀ n : Number, n.isZero = true → n.text = "0") ∧
      (∀ (n n' : Number) (x x' : ℚ), n.value? = some x → n'.value? = some x' →
        n.same n' = false → n.text ≠ n'.text) := by
  refine ⟨fun n x => exists_isSpelled, fun n k => text_of_int, ?_, fun n => text_of_isZero, ?_⟩
  · intro s p itemName item indexName index hp hne hIndex
    have hText : ((Scope.round s itemName item indexName index).resolve p).text = toString index :=
      Scope.text_resolve_round_index hp hne hIndex
    rw [Part.pieces, Part.pieces, hText]
    exact ⟨rfl, by rw [escape_toString]⟩
  · intro n n' x x' h h' hSame hText
    obtain ⟨negative, m, rfl, -⟩ := value?_eq_some h
    obtain ⟨negative', m', rfl, -⟩ := value?_eq_some h'
    rw [same_of_text_eq hText] at hSame
    cases hSame

/-- Minus one and a half, the greatest integer that is sure to have its own digits, the eighth
round of a loop, minus zero, and two numbers next to each other. -/
theorem Number.text_faithful_three_halves :
    (∃ numeral, (ofBits 0xBFF8000000000000).IsSpelled (-3 / 2) numeral) ∧
      (ofNat (2 ^ 53)).text = toString ((2 ^ 53 : Nat) : Int) ∧
      ((Part.interpolate ⟨"i", ["i"]⟩).pieces (.round (.root ⟨[]⟩) "x" .null "i" 7) = ["7"] ∧
        (Part.escape ⟨"i", ["i"]⟩).pieces (.round (.root ⟨[]⟩) "x" .null "i" 7) = ["7"]) ∧
      (finite true .zero).text = "0" ∧
      (ofNat 1).text ≠ (ofNat 2).text := by
  obtain ⟨spelled, whole, index, zero, injective⟩ := text_faithful
  refine ⟨spelled _ _ ?_ (by norm_num), whole _ _ (value?_ofNat (Nat.le_refl _)) (by decide),
    index _ _ _ _ _ _ rfl (by decide) (by decide), zero _ rfl,
    injective _ _ _ _ (value?_ofNat (by decide)) (value?_ofNat (by decide)) (by decide +kernel)⟩
  rw [value?_ofBits (by decide)]
  norm_num

end Stencil
