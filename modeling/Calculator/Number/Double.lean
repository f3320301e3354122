import Calculator.Decimal.Double
import Calculator.Number

/-!
# Doubles as numbers

The calculator runs on IEEE doubles: their own operations, and their shortest
decimal texts.
-/

set_option autoImplicit false

namespace Calculator

instance : Arithmetic Float where
  zero := 0.0
  one := 1.0

instance : Numeral Float where
  read? := doubleOfNumeral?
  text := doubleText
  isFinite := Float.isFinite

end Calculator
