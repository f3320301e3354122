import Calculator.Decimal.Shortest

/-!
# Doubles and decimals

Reading rounds a decimal to the nearest double, writing gives the shortest
decimal that reads back. Infinities, the number that is none, and the sign of
zero have texts of their own.
-/

set_option autoImplicit false

namespace Calculator

/-- A power of ten that scales `coefficient` to the same double as `exponent`
does. Beyond four hundred places every product is infinite or zero. -/
def boundedExponent (coefficient : Nat) (exponent : Int) : Int :=
  max (-(400 + (coefficient.log2 : Int))) (min 400 exponent)

/-- The double nearest to a decimal; of two equally near ones the even one. -/
def Decimal.toFloat (decimal : Decimal) : Float :=
  let magnitude : Float :=
    match boundedExponent decimal.coefficient decimal.exponent with
    | .ofNat zeros => Float.ofScientific decimal.coefficient false zeros
    | .negSucc places => Float.ofScientific decimal.coefficient true (places + 1)
  if decimal.negative then -magnitude else magnitude

/-- The fields of a double's bit pattern. -/
structure DoubleFields where
  negative : Bool
  biasedExponent : Nat
  fraction : Nat
deriving DecidableEq, Repr

/-- The fields of a bit pattern: a sign bit, eleven bits, fifty-two bits. -/
def DoubleFields.ofBits (bits : UInt64) : DoubleFields where
  negative := 1 ≤ bits.toNat / Nat.pow 2 63
  biasedExponent := bits.toNat / Nat.pow 2 52 % Nat.pow 2 11
  fraction := bits.toNat % Nat.pow 2 52

namespace DoubleFields

/-- The reals that round to the magnitude of a finite double other than zero. A
normal number has an implicit leading bit, and the gap below a power of two is
half the gap above it. -/
def roundingInterval (fields : DoubleFields) : RoundingInterval :=
  if fields.biasedExponent = 0 then .ofBinary fields.fraction (-1074) false
  else
    .ofBinary (fields.fraction + Nat.pow 2 52) (fields.biasedExponent - 1075)
      (fields.fraction == 0 && 1 < fields.biasedExponent)

/-- The text of the magnitude of a double that is a number. -/
def magnitudeText (fields : DoubleFields) : String :=
  if fields.biasedExponent = 2047 then "inf"
  else if fields.biasedExponent = 0 && fields.fraction = 0 then "0"
  else fields.roundingInterval.shortest.text

def text (fields : DoubleFields) : String :=
  if fields.biasedExponent = 2047 && fields.fraction ≠ 0 then "NaN"
  else if fields.negative then "-" ++ fields.magnitudeText
  else fields.magnitudeText

end DoubleFields

/-- The shortest decimal text of a double. -/
def doubleText (value : Float) : String :=
  (DoubleFields.ofBits value.toBits).text

/-- The double of an unsigned numeral such as `12`, `3.`, `.5` or `6.10`. -/
def doubleOfNumeral? (numeral : String) : Option Float :=
  (Decimal.ofNumeral? numeral.toList).map Decimal.toFloat

end Calculator
