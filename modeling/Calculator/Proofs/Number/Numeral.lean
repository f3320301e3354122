import Calculator.Number
import Calculator.Proofs.Token.Lexeme

/-!
# Assumptions on texts of numbers

Reading accepts every numeral, and the text of a finite number reads back: what the
calculator relies on where it reads and writes numbers.
-/

set_option autoImplicit false

namespace Calculator

/-- Every numeral has a value. -/
def ReadsNumerals (α : Type) [Numeral α] : Prop :=
  ∀ lexeme : String, NumeralText lexeme.toList →
    ∃ value : α, Numeral.read? lexeme = some value

/-- The texts `[0-9]+(\.[0-9]+)?`. -/
inductive DecimalText : List Char → Prop where
  | whole {digits : List Char} :
      digits ≠ [] → (∀ digit ∈ digits, digit.isDigit) → DecimalText digits
  | pointed {digits fraction : List Char} :
      digits ≠ [] → (∀ digit ∈ digits, digit.isDigit) →
      fraction ≠ [] → (∀ digit ∈ fraction, digit.isDigit) →
      DecimalText (digits ++ '.' :: fraction)

/-- A finite number is written as a decimal, with a minus sign in front of it or not,
that reads back to the number, or to the number of which it is the opposite. -/
def TextsReadBack (α : Type) [Numeral α] [Neg α] : Prop :=
  ∀ value : α, Numeral.isFinite value = true →
    ∃ unsigned : String, DecimalText unsigned.toList ∧
      (Numeral.text value = unsigned ∧ Numeral.read? unsigned = some value ∨
        ∃ magnitude : α, Numeral.text value = "-" ++ unsigned ∧
          Numeral.read? unsigned = some magnitude ∧ -magnitude = value)

end Calculator
