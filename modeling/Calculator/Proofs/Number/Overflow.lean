import Mathlib.Algebra.Field.Rat
import Mathlib.Algebra.Order.Field.Basic
import Mathlib.Tactic.Positivity
import Mathlib.Tactic.Ring
import Calculator.Number.Double
import Calculator.Proofs.Number.Rational

/-!
# Numerals too large for a double

A numeral is read as infinity from the point on that lies halfway between the greatest double
and the next power of two.
-/

set_option autoImplicit false

namespace Calculator

open Float.Model Float.Model.UnpackedFloat

/-- The exponent of half the gap between the two greatest doubles, kept from being unfolded
where the power of two would be computed. -/
@[irreducible] def halfGapExponent : Nat := 970

private theorem halfGapExponent_eq : halfGapExponent = 970 := by
  rw [halfGapExponent]

/-- The midpoint between the greatest double and `2 ^ 1024`. -/
def overflowBound : Nat :=
  (2 ^ 54 - 1) * 2 ^ halfGapExponent

namespace Overflow

private theorem infinity_eq : (1.0 / 0.0 : Float) = .ofModel (.pack (.infinity .positive)) := rfl

private theorem mantissa_shiftRight (extended : ExtendedMantissa) (count : Nat) :
    (extended >>> count).mantissa = extended.mantissa / 2 ^ count := by
  induction count with
  | zero => exact (Nat.div_one _).symm
  | succ count ih =>
      change (extended >>> count).mantissa / 2 = _
      rw [ih, Nat.div_div_eq_div_mul, Nat.pow_succ]

private theorem roundBit_shiftRight (extended : ExtendedMantissa) (count : Nat) :
    (extended >>> (count + 1)).roundBit = (extended.mantissa / 2 ^ count % 2 != 0) := by
  change ((extended >>> count).mantissa % 2 != 0) = _
  rw [mantissa_shiftRight]

private theorem mantissa_ofMantissaAndAccuracy (mantissa : Nat) (accuracy : Accuracy) :
    (ExtendedMantissa.ofMantissaAndAccuracy mantissa accuracy).mantissa = mantissa := by
  rcases accuracy with _ | _ | _ | _ <;> rfl

private theorem le_roundedMantissa (extended : ExtendedMantissa) :
    extended.mantissa ≤ extended.roundedMantissa := by
  obtain ⟨mantissa, _ | _, _ | _⟩ := extended
  · exact Nat.le_refl _
  · exact Nat.le_refl _
  · exact Nat.le_add_right _ _
  · exact Nat.le_add_right _ _

/-- An odd mantissa is rounded up from its half on. -/
theorem roundedMantissa_of_odd {extended : ExtendedMantissa} (half : extended.roundBit = true)
    (odd : extended.mantissa % 2 = 1) : extended.roundedMantissa = extended.mantissa + 1 := by
  obtain ⟨mantissa, _ | _, _ | _⟩ := extended
  · cases half
  · cases half
  · exact congrArg (mantissa + ·) odd
  · rfl

private theorem targetExponent_eq (total : Int) :
    Format.binary64.targetExponent total = max (total - 53) (-1074) := rfl

/-- Away from the smallest doubles, shifting leaves the highest 53 bits. -/
theorem shiftToTargetExponent_eq {mantissa : Nat} {exponent : Int} (accuracy : Accuracy)
    (normal : 0 ≤ mantissa.log2 + exponent) :
    shiftToTargetExponent .binary64 mantissa exponent accuracy =
      (ExtendedMantissa.ofMantissaAndAccuracy mantissa accuracy >>> (mantissa.log2 - 52),
        exponent + (mantissa.log2 - 52 : Nat)) := by
  have shift : (Format.binary64.targetExponent (totalExponent mantissa exponent) -
      exponent).toNat = mantissa.log2 - 52 := by
    rw [targetExponent_eq, totalExponent]
    omega
  simp only [shiftToTargetExponent, shiftToExponent, shift]

/-- The highest 53 bits of a mantissa with at least as many. -/
theorem two_pow_le_shiftRight {mantissa : Nat} (accuracy : Accuracy) (many : 52 ≤ mantissa.log2) :
    2 ^ 52 ≤ (ExtendedMantissa.ofMantissaAndAccuracy mantissa accuracy >>>
      (mantissa.log2 - 52)).mantissa := by
  have positive : mantissa ≠ 0 := by
    rintro rfl
    rw [Nat.log2_zero] at many
    omega
  rw [mantissa_shiftRight, mantissa_ofMantissaAndAccuracy,
    Nat.le_div_iff_mul_le (Nat.two_pow_pos _), ← Nat.pow_add, Nat.add_sub_cancel' many]
  exact Nat.log2_self_le positive

/-- The highest 54 bits of a mantissa are all ones in the upper half of the last gap. -/
theorem div_eq_of_log2 {mantissa count : Nat} (large : (2 ^ 54 - 1) * 2 ^ count ≤ mantissa)
    (log : mantissa.log2 = 53 + count) : mantissa / 2 ^ count = 2 ^ 54 - 1 := by
  have below : mantissa < 2 ^ (mantissa.log2 + 1) := Nat.lt_log2_self
  rw [log, show 53 + count + 1 = 54 + count by omega, Nat.pow_add] at below
  exact Nat.div_eq_of_lt_le large below

private theorem le_log2_of_le {mantissa count : Nat} (large : (2 ^ 54 - 1) * 2 ^ count ≤ mantissa) :
    53 + count ≤ mantissa.log2 := by
  have positive := Nat.two_pow_pos count
  rw [Nat.le_log2 (by omega), Nat.pow_add]
  omega

/-- From half a gap above the greatest double on, rounding reaches the next power of two. -/
theorem log2_roundedMantissa {mantissa count : Nat} {exponent : Int} (accuracy : Accuracy)
    (gap : exponent + count = 970) (large : (2 ^ 54 - 1) * 2 ^ count ≤ mantissa) :
    1024 ≤ ((ExtendedMantissa.ofMantissaAndAccuracy mantissa accuracy >>>
      (mantissa.log2 - 52)).roundedMantissa.log2 : Int) + (exponent + (mantissa.log2 - 52 : Nat)) := by
  have atLeast := le_log2_of_le large
  have normal := two_pow_le_shiftRight accuracy (show 52 ≤ mantissa.log2 by omega)
  generalize extended : ExtendedMantissa.ofMantissaAndAccuracy mantissa accuracy >>>
    (mantissa.log2 - 52) = kept at normal ⊢
  by_cases above : 54 + count ≤ mantissa.log2
  · have roundedNormal := Nat.le_trans normal (le_roundedMantissa kept)
    have log : 52 ≤ kept.roundedMantissa.log2 := (Nat.le_log2 (by omega)).mpr roundedNormal
    omega
  · have log : mantissa.log2 = 53 + count := by omega
    have ones := div_eq_of_log2 large log
    have shift : mantissa.log2 - 52 = count + 1 := by omega
    have allOnes : kept.mantissa = 2 ^ 53 - 1 := by
      rw [← extended, shift, mantissa_shiftRight, mantissa_ofMantissaAndAccuracy, Nat.pow_succ,
        ← Nat.div_div_eq_div_mul, ones]
      rfl
    have half : kept.roundBit = true := by
      rw [← extended, shift, roundBit_shiftRight, mantissa_ofMantissaAndAccuracy, ones]
      rfl
    have rounded : kept.roundedMantissa = 2 ^ 53 := by
      have odd : kept.mantissa % 2 = 1 := by
        rw [allOnes]
        rfl
      rw [roundedMantissa_of_odd half odd, allOnes]
      rfl
    rw [rounded, Nat.log2_two_pow]
    omega

private theorem pack_finite {sign : Sign} {mantissa : Nat} {exponent : Int}
    {positive : 0 < mantissa} (large : 972 ≤ exponent) :
    UnpackedFloat.pack .binary64 (.finite sign mantissa exponent positive) =
      packedInfinity .binary64 sign := by
  have biased : 2 ^ 11 ≤ (exponent + (1023 : Nat) + (52 : Nat)).toNat + 1 := by omega
  exact if_pos biased

/-- What rounds to at least `2 ^ 1024` is packed as infinity. -/
theorem pack_roundWithAccuracy {mantissa : Nat} {exponent : Int} (count : Nat) (sign : Sign)
    (accuracy : Accuracy) (scaled : exponent = -(count : Int))
    (overflow : overflowBound * 2 ^ count ≤ mantissa) :
    UnpackedFloat.pack .binary64 (roundWithAccuracy .binary64 sign mantissa exponent accuracy) =
      packedInfinity .binary64 sign := by
  have large : (2 ^ 54 - 1) * 2 ^ (halfGapExponent + count) ≤ mantissa := by
    rwa [Nat.pow_add, ← Nat.mul_assoc]
  have gap : exponent + (halfGapExponent + count : Nat) = 970 := by
    rw [halfGapExponent_eq]
    omega
  have reached := log2_roundedMantissa accuracy gap large
  have atLeast := le_log2_of_le large
  have normal := Nat.le_trans (two_pow_le_shiftRight accuracy (show 52 ≤ mantissa.log2 by omega))
    (le_roundedMantissa _)
  delta roundWithAccuracy
  rw [shiftToTargetExponent_eq accuracy (by omega)]
  dsimp only
  rw [shiftToTargetExponent_eq .exact (by omega)]
  dsimp only
  generalize ExtendedMantissa.roundedMantissa _ = rounded at reached normal ⊢
  have log : 52 ≤ rounded.log2 := (Nat.le_log2 (by omega)).mpr normal
  have kept := two_pow_le_shiftRight .exact log
  rw [dif_neg (by omega)]
  exact pack_finite (by omega)

private theorem pack_mul {coefficient zeros : Nat} (positive : 0 < coefficient <<< 53)
    (power : 0 < 10 ^ zeros) (overflow : overflowBound ≤ coefficient * 10 ^ zeros) :
    UnpackedFloat.pack .binary64 (UnpackedFloat.mul .binary64
      (.finite .positive (coefficient <<< 53) (-53) positive)
      (.finite .positive (10 ^ zeros) 0 power)) = packedInfinity .binary64 .positive := by
  refine pack_roundWithAccuracy 53 .positive .exact rfl ?_
  rw [Nat.shiftLeft_eq, Nat.mul_right_comm coefficient]
  exact Nat.mul_le_mul_right (2 ^ 53) overflow

private theorem pack_div {coefficient places : Nat} (positive : 0 < coefficient)
    (power : 0 < 10 ^ places) (overflow : overflowBound * 10 ^ places ≤ coefficient) :
    UnpackedFloat.pack .binary64 (UnpackedFloat.div .binary64
      (.finite .positive coefficient 0 positive)
      (.finite .positive (10 ^ places) 0 power)) = packedInfinity .binary64 .positive := by
  delta UnpackedFloat.div divCore
  dsimp only
  generalize totalExponent coefficient 0 - totalExponent (10 ^ places) 0 = total
  generalize aim : min (0 - 0) (Format.binary64.targetExponent total) = exponent
  generalize shift : (0 - 0 - exponent).toNat = count
  refine pack_roundWithAccuracy count .positive _ (by omega) ?_
  rw [Nat.shiftLeft_eq, Nat.le_div_iff_mul_le power, Nat.mul_right_comm]
  exact Nat.mul_le_mul_right (2 ^ count) overflow

private theorem two_pow_le_overflowBound : 2 ^ 53 ≤ overflowBound :=
  Nat.le_trans (by decide) (Nat.le_mul_of_pos_right _ (Nat.two_pow_pos halfGapExponent))

private theorem large_of_overflow {coefficient places : Nat}
    (overflow : overflowBound * 10 ^ places ≤ coefficient) :
    2 ^ 53 ≤ coefficient ∧ places ≤ coefficient.log2 := by
  have bound := two_pow_le_overflowBound
  have large : overflowBound ≤ coefficient :=
    Nat.le_trans (Nat.le_mul_of_pos_right _ (Nat.pow_pos (by decide))) overflow
  have power : 10 ^ places ≤ coefficient :=
    Nat.le_trans (Nat.le_mul_of_pos_left _ (by omega)) overflow
  refine ⟨Nat.le_trans bound large, (Nat.le_log2 (by omega)).mpr ?_⟩
  exact Nat.le_trans (Nat.pow_le_pow_left (by decide) places) power

private theorem ofScientific_eq_infinity {coefficient places : Nat}
    (overflow : overflowBound * 10 ^ places ≤ coefficient) :
    Float.Model.ofScientific coefficient (-(places : Int)) = .pack (.infinity .positive) := by
  obtain ⟨large, log⟩ := large_of_overflow overflow
  have positive : coefficient ≠ 0 := by omega
  have packed : UnpackedFloat.pack .binary64
      (UnpackedFloat.ofScientific .binary64 coefficient (-(places : Int))) =
        packedInfinity .binary64 .positive := by
    delta UnpackedFloat.ofScientific
    dsimp only
    have exponents : (0 : Int) < 2 ^ Format.binary64.exponentBits := by decide
    rw [dif_neg positive, if_neg (by omega), if_neg (by omega)]
    by_cases integer : places = 0
    · subst integer
      have scaled : overflowBound ≤ coefficient * 10 ^ 0 := by
        rwa [Nat.pow_zero, Nat.mul_one] at overflow ⊢
      rw [if_pos (by omega)]
      exact pack_mul _ _ scaled
    · have same : (- -(places : Int)).toNat = places := by omega
      rw [if_neg (by omega)]
      refine pack_div _ _ ?_
      rw [same]
      exact overflow
  unfold Float.Model.ofScientific Float.Model.pack
  congr 1
  rw [packed]
  rfl

end Overflow

namespace Decimal

open Overflow

private theorem boundedExponent_of_overflow {coefficient places : Nat}
    (overflow : overflowBound * 10 ^ places ≤ coefficient) :
    boundedExponent coefficient (-(places : Int)) = -(places : Int) := by
  obtain ⟨-, log⟩ := large_of_overflow overflow
  unfold boundedExponent
  omega

/-- A decimal from the bound on is read as infinity. -/
theorem toFloat_eq_infinity {coefficient places : Nat}
    (overflow : overflowBound * 10 ^ places ≤ coefficient) :
    toFloat ⟨false, coefficient, -(places : Int)⟩ = 1.0 / 0.0 := by
  obtain ⟨large, -⟩ := large_of_overflow overflow
  have slow : ¬(coefficient < 2 ^ 53 ∧ places ≤ 22) := by omega
  have infinite := ofScientific_eq_infinity overflow
  unfold toFloat
  dsimp only
  rw [boundedExponent_of_overflow overflow, infinity_eq]
  cases places with
  | zero =>
      change Float.ofScientific coefficient false 0 = _
      rw [Float.ofScientific, dif_neg slow]
      exact congrArg Float.ofModel infinite
  | succ places =>
      change Float.ofScientific coefficient true (places + 1) = _
      rw [Float.ofScientific, dif_neg slow]
      exact congrArg Float.ofModel infinite

private theorem eq_of_ofNumeral? {text : List Char} {decimal : Decimal}
    (read : ofNumeral? text = some decimal) :
    ∃ coefficient places : Nat, decimal = ⟨false, coefficient, -(places : Int)⟩ := by
  simp only [ofNumeral?] at read
  split at read
  · split at read
    · cases read
    · cases read
      exact ⟨_, 0, rfl⟩
  · split at read
    · cases read
      exact ⟨_, _, rfl⟩
    · cases read
  · cases read

end Decimal

theorem readsNumerals_rat : ReadsNumerals ℚ := by
  refine readsNumerals_of_decimal (fun decimal => (FixedPoint.ofDecimal decimal).toRat) ?_
  intro lexeme
  change ((Decimal.ofNumeral? lexeme.toList).map FixedPoint.ofDecimal).map FixedPoint.toRat = _
  rw [Option.map_map]
  rfl

private theorem overflowBound_eq : (overflowBound : ℚ) = 2 ^ 1024 - 2 ^ 970 := by
  have half := halfGapExponent_eq
  have top : 1024 = 54 + halfGapExponent := by rw [half]
  rw [top, ← half, overflowBound, pow_add]
  push_cast
  ring

/-- A numeral whose value is at least the bound is read as infinity. -/
theorem read_eq_infinity {lexeme : String} {exact : ℚ} (read : Numeral.read? lexeme = some exact)
    (overflow : 2 ^ 1024 - 2 ^ 970 ≤ exact) :
    Numeral.read? lexeme = some (1.0 / 0.0 : Float) := by
  obtain ⟨number, fixed, rfl⟩ := Option.map_eq_some_iff.mp read
  obtain ⟨decimal, found, rfl⟩ := Option.map_eq_some_iff.mp fixed
  obtain ⟨coefficient, places, rfl⟩ := Decimal.eq_of_ofNumeral? found
  have value : (FixedPoint.ofDecimal ⟨false, coefficient, -(places : Int)⟩).toRat =
      (coefficient : ℚ) / (10 ^ places : ℕ) := by
    rw [FixedPoint.ofDecimal, neg_neg, Int.toNat_natCast]
    rfl
  have power : (0 : ℚ) < (10 ^ places : ℕ) := by positivity
  rw [value, ← overflowBound_eq, le_div_iff₀ power] at overflow
  have exceeds : overflowBound * 10 ^ places ≤ coefficient := by exact_mod_cast overflow
  change Option.map Decimal.toFloat (Decimal.ofNumeral? lexeme.toList) = _
  rw [found, Option.map_some, Decimal.toFloat_eq_infinity exceeds]

end Calculator
