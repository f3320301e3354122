import Calculator.Number

/-!
# Documents

The values of the JSON data format, over numbers of type `α`. The fields of an
object keep their order. The format has no form for a number that is not finite;
it is written as `null`.
-/

set_option autoImplicit false

namespace Calculator

/-- A JSON value. -/
inductive Json (α : Type) where
  | null
  | boolean (value : Bool)
  | number (value : α)
  | string (text : String)
  | array (items : List (Json α))
  | object (fields : List (String × Json α))
deriving Inhabited, Repr

namespace Json

variable {α : Type}

def ofNumber [Numeral α] (value : α) : Json α :=
  if Numeral.isFinite value then .number value else .null

end Json

end Calculator
