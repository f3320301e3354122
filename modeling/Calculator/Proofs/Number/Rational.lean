import Mathlib.Algebra.Field.Rat
import Calculator.Proofs.Number.FixedPoint

/-!
# Rational numbers

Rationals are an exact arithmetic with texts: a rational is written in fixed-point notation,
and counts as finite if that is exact.
-/

set_option autoImplicit false

namespace Calculator

namespace FixedPoint

def toRat (number : FixedPoint) : ℚ :=
  let magnitude : ℚ := number.coefficient / (10 ^ number.places : ℕ)
  if number.negative then -magnitude else magnitude

/-- A fraction with enough places for its denominator, if any number of places is enough. -/
def ofRat (number : ℚ) : FixedPoint :=
  let places := number.den.log2
  ⟨decide (number < 0), number.num.natAbs * 10 ^ places / number.den, places⟩

private theorem toRat_neg (number : FixedPoint) : (-number).toRat = -number.toRat := by
  obtain ⟨negative, coefficient, places⟩ := number
  cases negative with
  | false => rfl
  | true => exact (neg_neg _).symm

end FixedPoint

instance : Numeral ℚ where
  read? lexeme := (Numeral.read? lexeme : Option FixedPoint).map FixedPoint.toRat
  text number := Numeral.text (FixedPoint.ofRat number)
  isFinite number := decide ((FixedPoint.ofRat number).toRat = number)

theorem textsReadBack_rat : TextsReadBack ℚ := by
  intro value finite
  have exact : (FixedPoint.ofRat value).toRat = value := of_decide_eq_true finite
  obtain ⟨unsigned, decimal, ⟨text, read⟩ | ⟨magnitude, text, read, opposite⟩⟩ :=
    FixedPoint.textsReadBack (FixedPoint.ofRat value) rfl
  · refine ⟨unsigned, decimal, .inl ⟨text, ?_⟩⟩
    change Option.map FixedPoint.toRat (Numeral.read? unsigned) = _
    rw [read, Option.map_some, exact]
  · refine ⟨unsigned, decimal, .inr ⟨magnitude.toRat, text, ?_, ?_⟩⟩
    · change Option.map FixedPoint.toRat (Numeral.read? unsigned) = _
      rw [read, Option.map_some]
    · rw [← FixedPoint.toRat_neg, opposite, exact]

example : Numeral.text (-5 / 2 : ℚ) = "-2.5" := by decide +kernel

end Calculator
