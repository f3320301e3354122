import Calculator.Proofs.Number.Decimal

/-!
# Fixed-point numbers

Decimals with a number of places after the point are numbers whose texts meet the
assumptions on numbers exactly: every numeral has a value, every text reads back.
-/

set_option autoImplicit false

namespace Calculator

/-- The number `coefficient / 10 ^ places`, or its opposite. -/
structure FixedPoint where
  negative : Bool
  coefficient : Nat
  places : Nat
deriving DecidableEq, Repr

namespace FixedPoint

def decimal (number : FixedPoint) : Decimal :=
  ⟨number.negative, number.coefficient, -(number.places : Int)⟩

def ofDecimal (decimal : Decimal) : FixedPoint :=
  ⟨decimal.negative, decimal.coefficient, (-decimal.exponent).toNat⟩

instance : Neg FixedPoint := ⟨fun number => { number with negative := !number.negative }⟩

instance : Numeral FixedPoint where
  read? text := (Decimal.ofNumeral? text.toList).map ofDecimal
  text number := number.decimal.text
  isFinite _ := true

theorem readsNumerals : ReadsNumerals FixedPoint :=
  readsNumerals_of_decimal ofDecimal fun _ => rfl

/-! ## Reading back -/

private theorem digitsValue_padded (coefficient zeros : Nat) :
    digitsValue (List.replicate zeros '0' ++ Nat.toDigits 10 coefficient) = coefficient := by
  rw [digitsValue_eq, Nat.ofDigitChars_append, Nat.ofDigitChars_replicate_zero, Nat.mul_zero,
    Nat.ofDigitChars_ten_toDigits]

private theorem withPoint_reads {digits : List Char} {places : Nat} (isFraction : 0 < places)
    (areDigits : ∀ digit ∈ digits, digit.isDigit) :
    DecimalText (Decimal.withPoint digits places) ∧
      Decimal.ofNumeral? (Decimal.withPoint digits places) =
        some ⟨false, digitsValue (List.replicate (places + 1 - digits.length) '0' ++ digits),
          -(places : Int)⟩ := by
  unfold Decimal.withPoint
  generalize padding : List.replicate (places + 1 - digits.length) '0' ++ digits = padded
  have paddedDigits : ∀ digit ∈ padded, digit.isDigit := by
    rw [← padding]
    intro digit member
    rcases List.mem_append.mp member with zero | member
    · rw [List.eq_of_mem_replicate zero]
      rfl
    · exact areDigits digit member
  have long : places < padded.length := by
    rw [← padding, List.length_append, List.length_replicate]
    omega
  have nonempty : padded.take (padded.length - places) ≠ [] := by
    rw [← List.length_pos_iff, List.length_take]
    omega
  have fractionLength : (padded.drop (padded.length - places)).length = places := by
    rw [List.length_drop]
    omega
  have fractionNonempty : padded.drop (padded.length - places) ≠ [] := by
    rw [← List.length_pos_iff, fractionLength]
    exact isFraction
  have frontDigits : ∀ digit ∈ padded.take (padded.length - places), digit.isDigit :=
    fun digit member => paddedDigits digit (List.mem_of_mem_take member)
  have backDigits : ∀ digit ∈ padded.drop (padded.length - places), digit.isDigit :=
    fun digit member => paddedDigits digit (List.mem_of_mem_drop member)
  refine ⟨.pointed nonempty frontDigits fractionNonempty backDigits, ?_⟩
  rw [Decimal.ofNumeral?_pointed (.inl nonempty) frontDigits backDigits, fractionLength,
    List.take_append_drop]

/-- The magnitude of a fixed-point number is a decimal that reads back. -/
theorem magnitudeText_reads (number : FixedPoint) :
    DecimalText number.decimal.magnitudeText ∧
      (Decimal.ofNumeral? number.decimal.magnitudeText).map ofDecimal =
        some { number with negative := false } := by
  obtain ⟨negative, coefficient, places⟩ := number
  have areDigits : ∀ digit ∈ Nat.toDigits 10 coefficient, digit.isDigit :=
    fun digit => Nat.isDigit_of_mem_toDigits (by decide) (by decide)
  cases places with
  | zero =>
      have whole : (decimal ⟨negative, coefficient, 0⟩).magnitudeText =
          Nat.toDigits 10 coefficient := List.append_nil _
      rw [whole, Decimal.ofNumeral?_whole Nat.toDigits_ne_nil areDigits, digitsValue_eq,
        Nat.ofDigitChars_ten_toDigits]
      exact ⟨.whole Nat.toDigits_ne_nil areDigits, rfl⟩
  | succ places =>
      have pointed : (decimal ⟨negative, coefficient, places + 1⟩).magnitudeText =
          Decimal.withPoint (Nat.toDigits 10 coefficient) (places + 1) := rfl
      obtain ⟨decimalText, reads⟩ := withPoint_reads (Nat.succ_pos places) areDigits
      rw [pointed, reads, digitsValue_padded]
      exact ⟨decimalText, rfl⟩

theorem textsReadBack : TextsReadBack FixedPoint := by
  intro number _
  obtain ⟨decimalText, reads⟩ := magnitudeText_reads number
  have unsignedReads : Numeral.read? (String.ofList number.decimal.magnitudeText) =
      some { number with negative := false } := by
    rw [← reads]
    simp only [Numeral.read?, String.toList_ofList]
  refine ⟨String.ofList number.decimal.magnitudeText, by rwa [String.toList_ofList], ?_⟩
  obtain ⟨negative, coefficient, places⟩ := number
  cases negative with
  | false => exact .inl ⟨rfl, unsignedReads⟩
  | true =>
      refine .inr ⟨_, ?_, unsignedReads, rfl⟩
      apply String.toList_injective
      simp [Numeral.text, Decimal.text, decimal]

end FixedPoint

end Calculator
