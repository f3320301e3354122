import Calculator.Number.Double

/-!
# Equality of numbers

Numbers are compared by `==`, which need not be the equality of the logic: a double that is
not a number differs from itself, and the two zeros are equal. What is assumed of `==` is
that it is symmetric and transitive, and that no number equals both zero and one. Doubles
meet both assumptions.
-/

set_option autoImplicit false

namespace Calculator

/-- No number equals both zero and one. -/
def ZeroOneApart (α : Type) [Arithmetic α] : Prop :=
  ∀ number : α, (number == 0) = true → (number == 1) = false

private theorem zeroOneApart_of_ne {α : Type} [Arithmetic α] [PartialEquivBEq α]
    (apart : ((0 : α) == 1) = false) : ZeroOneApart α := by
  intro number isZero
  rw [← BEq.congr_left isZero] at apart
  exact apart

/-! ## Doubles -/

open Float.Model in
/-- What equal doubles are: infinities of one sign, any two zeros, or one finite number. -/
inductive SameDouble : UnpackedFloat → UnpackedFloat → Prop where
  | infinity (sign : UnpackedFloat.Sign) : SameDouble (.infinity sign) (.infinity sign)
  | zero (first second : UnpackedFloat.Sign) : SameDouble (.zero first) (.zero second)
  | finite (sign : UnpackedFloat.Sign) {mantissa : Nat} (exponent : Int)
      (positive : 0 < mantissa) :
      SameDouble (.finite sign mantissa exponent positive) (.finite sign mantissa exponent positive)

namespace SameDouble

open Float.Model

variable {first second third : UnpackedFloat}

/-- Doubles of one sign are ordered by their exponents, then by their mantissas. -/
theorem ordered_eq_iff {exponent otherExponent : Int} {mantissa otherMantissa : Nat} :
    (compare exponent otherExponent).then (compare mantissa otherMantissa) = .eq ↔
      exponent = otherExponent ∧ mantissa = otherMantissa := by
  rw [Ordering.then_eq_eq, Std.compare_eq_iff_eq, Std.compare_eq_iff_eq]

theorem beq_iff : first.beq second = true ↔ SameDouble first second := by
  constructor
  · intro equal
    replace equal : first.compare second = some .eq := beq_iff_eq.mp equal
    cases first with
    | notANumber => cases equal
    | infinity sign =>
        cases second with
        | infinity other =>
            cases sign <;> cases other
            case negative.negative | positive.positive => exact .infinity _
            all_goals cases equal
        | notANumber | zero | finite => cases sign <;> cases equal
    | zero sign =>
        cases second with
        | zero other => exact .zero sign other
        | infinity other | finite other => cases other <;> cases equal
        | notANumber => cases equal
    | finite sign mantissa exponent positive =>
        cases second with
        | finite other otherMantissa otherExponent =>
            cases sign <;> cases other
            case positive.positive =>
              obtain ⟨rfl, rfl⟩ := ordered_eq_iff.mp (Option.some.inj equal)
              exact .finite .positive exponent positive
            case negative.negative =>
              have ordered := Ordering.swap_eq_eq.mp (Option.some.inj equal)
              obtain ⟨rfl, rfl⟩ := ordered_eq_iff.mp ordered
              exact .finite .negative exponent positive
            all_goals cases equal
        | infinity other => cases sign <;> cases other <;> cases equal
        | notANumber | zero => cases sign <;> cases equal
  · intro same
    cases same with
    | infinity sign => cases sign <;> rfl
    | zero => rfl
    | @finite sign mantissa exponent =>
        have ordered : (compare exponent exponent).then (compare mantissa mantissa) = .eq :=
          ordered_eq_iff.mpr ⟨rfl, rfl⟩
        cases sign with
        | positive => exact beq_iff_eq.mpr (congrArg some ordered)
        | negative => exact beq_iff_eq.mpr (congrArg some (Ordering.swap_eq_eq.mpr ordered))

theorem symm (same : SameDouble first second) : SameDouble second first := by
  cases same with
  | infinity sign => exact .infinity sign
  | zero => exact .zero _ _
  | finite sign exponent positive => exact .finite sign exponent positive

theorem trans (front : SameDouble first second) (back : SameDouble second third) :
    SameDouble first third := by
  cases front with
  | zero => cases back with | zero => exact .zero _ _
  | infinity | finite => exact back

end SameDouble

instance partialEquivBEq_float : PartialEquivBEq Float where
  symm equal := SameDouble.beq_iff.mpr (SameDouble.beq_iff.mp equal).symm
  trans front back :=
    SameDouble.beq_iff.mpr ((SameDouble.beq_iff.mp front).trans (SameDouble.beq_iff.mp back))

theorem zeroOneApart_float : ZeroOneApart Float :=
  zeroOneApart_of_ne (by decide +kernel)

end Calculator
