/-!
# Numbers

Expressions are trees over any type of numbers. What the calculator needs of that
type is split in two: the operations that evaluation and simplification perform,
and the texts by which numbers are read and written. Neither class states a law;
theorems that need one assume it.
-/

set_option autoImplicit false

namespace Calculator

/-- The operations of a type of numbers. `==` decides whether a divisor is zero
and whether a simplification rule matches. -/
class Arithmetic (α : Type) extends Zero α, One α, Add α, Sub α, Mul α, Div α, Neg α, BEq α

/-- The texts of a type of numbers. -/
class Numeral (α : Type) where
  /-- The value of an unsigned numeral, if the text is one. -/
  read? : String → Option α
  text : α → String
  /-- Whether a number is finite, so that its text is a numeral. -/
  isFinite : α → Bool

end Calculator
