import Calculator.Number.Double
import Calculator.Proofs.Number.Numeral

/-!
# Reading decimals

Every numeral is read as a decimal, so numbers whose numerals are read as decimals first
have a value for each of them. Doubles are such numbers.
-/

set_option autoImplicit false

namespace Calculator

theorem digitsValue_eq (digits : List Char) : digitsValue digits = Nat.ofDigitChars 10 digits 0 :=
  rfl

private theorem takeWhile_isDigit_append {digits : List Char}
    (areDigits : ∀ digit ∈ digits, digit.isDigit) (fraction : List Char) :
    (digits ++ '.' :: fraction).takeWhile Char.isDigit = digits := by
  simp [List.takeWhile_append_of_pos areDigits]

private theorem dropWhile_isDigit_append {digits : List Char}
    (areDigits : ∀ digit ∈ digits, digit.isDigit) (fraction : List Char) :
    (digits ++ '.' :: fraction).dropWhile Char.isDigit = '.' :: fraction := by
  simp [List.dropWhile_append_of_pos areDigits]

theorem Decimal.ofNumeral?_whole {digits : List Char} (nonempty : digits ≠ [])
    (areDigits : ∀ digit ∈ digits, digit.isDigit) :
    ofNumeral? digits = some ⟨false, digitsValue digits, 0⟩ := by
  have noPoint : (digits ++ []).dropWhile Char.isDigit = [] :=
    List.dropWhile_append_of_pos areDigits
  have all : (digits ++ []).takeWhile Char.isDigit = digits ++ [] :=
    List.takeWhile_append_of_pos areDigits
  rw [List.append_nil] at noPoint all
  simp [ofNumeral?, noPoint, all, nonempty]

theorem Decimal.ofNumeral?_pointed {digits fraction : List Char}
    (nonempty : digits ≠ [] ∨ fraction ≠ [])
    (areDigits : ∀ digit ∈ digits, digit.isDigit)
    (fractionDigits : ∀ digit ∈ fraction, digit.isDigit) :
    ofNumeral? (digits ++ '.' :: fraction) =
      some ⟨false, digitsValue (digits ++ fraction), -fraction.length⟩ := by
  have wellFormed :
      (fraction.all Char.isDigit && !(digits.isEmpty && fraction.isEmpty)) = true := by
    rcases nonempty with some | some <;> simp [some, List.all_eq_true.mpr fractionDigits]
  simp only [ofNumeral?, dropWhile_isDigit_append areDigits, takeWhile_isDigit_append areDigits,
    wellFormed, if_true]

private theorem Decimal.exists_ofNumeral? {text : List Char} (numeral : NumeralText text) :
    ∃ decimal, ofNumeral? text = some decimal := by
  cases numeral with
  | whole nonempty digits => exact ⟨_, ofNumeral?_whole nonempty digits⟩
  | pointed nonempty digits fraction =>
      exact ⟨_, ofNumeral?_pointed (.inl nonempty) digits fraction⟩
  | @fraction digits nonempty areDigits =>
      exact ⟨_, ofNumeral?_pointed (.inr nonempty) (List.forall_mem_nil _) areDigits⟩

theorem readsNumerals_of_decimal {α : Type} [Numeral α] (value : Decimal → α)
    (read : ∀ lexeme : String,
      Numeral.read? lexeme = (Decimal.ofNumeral? lexeme.toList).map value) : ReadsNumerals α := by
  intro lexeme numeral
  obtain ⟨decimal, found⟩ := Decimal.exists_ofNumeral? numeral
  exact ⟨value decimal, by rw [read, found, Option.map_some]⟩

theorem readsNumerals_float : ReadsNumerals Float :=
  readsNumerals_of_decimal Decimal.toFloat fun _ => rfl

end Calculator
