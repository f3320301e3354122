/-!
# Decimal numbers

A decimal is a coefficient scaled by a power of ten. It is written positionally:
no exponent, no point without digits after it, and a digit in front of the point.
-/

set_option autoImplicit false

namespace Calculator

/-- The number `coefficient * 10 ^ exponent`, or its negative. -/
structure Decimal where
  negative : Bool
  coefficient : Nat
  exponent : Int
deriving DecidableEq, Repr

/-- The value of a row of decimal digits. -/
def digitsValue (digits : List Char) : Nat :=
  digits.foldl (fun value digit => 10 * value + (digit.toNat - '0'.toNat)) 0

namespace Decimal

/-- Reads an unsigned numeral: digits, optionally followed by a point and more
digits, or a point followed by at least one digit. -/
def ofNumeral? (text : List Char) : Option Decimal :=
  let whole := text.takeWhile Char.isDigit
  match text.dropWhile Char.isDigit with
  | [] => if whole.isEmpty then none else some ⟨false, digitsValue whole, 0⟩
  | '.' :: fraction =>
      if fraction.all Char.isDigit && !(whole.isEmpty && fraction.isEmpty) then
        some ⟨false, digitsValue (whole ++ fraction), -fraction.length⟩
      else none
  | _ :: _ => none

/-- Digits whose last `places` stand after the point, with zeros in front so that
one digit stands before it. -/
def withPoint (digits : List Char) (places : Nat) : List Char :=
  let padded := List.replicate (places + 1 - digits.length) '0' ++ digits
  padded.take (padded.length - places) ++ '.' :: padded.drop (padded.length - places)

/-- The positional notation of the number without its sign. -/
def magnitudeText (decimal : Decimal) : List Char :=
  let digits := Nat.toDigits 10 decimal.coefficient
  match decimal.exponent with
  | .ofNat zeros => digits ++ List.replicate zeros '0'
  | .negSucc places => withPoint digits (places + 1)

def text (decimal : Decimal) : String :=
  String.ofList (if decimal.negative then '-' :: decimal.magnitudeText else decimal.magnitudeText)

end Decimal

example : (Decimal.mk false 5 (-1)).text = "0.5" := by decide +kernel
example : (Decimal.mk true 12 2).text = "-1200" := by decide +kernel
example : (Decimal.mk false 1234 (-2)).text = "12.34" := by decide +kernel

end Calculator
