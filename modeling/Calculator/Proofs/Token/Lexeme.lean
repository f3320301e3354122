import Calculator.Token.Lexer

/-!
# Lexemes

What the lexeme of a token looks like, by its kind, and which texts are cut off as one
token.
-/

set_option autoImplicit false

namespace Calculator

/-- The texts `[0-9]+(\.[0-9]*)?` and `\.[0-9]+`. -/
inductive NumeralText : List Char → Prop where
  | whole {digits : List Char} :
      digits ≠ [] → (∀ digit ∈ digits, digit.isDigit) → NumeralText digits
  | pointed {digits fraction : List Char} :
      digits ≠ [] → (∀ digit ∈ digits, digit.isDigit) → (∀ digit ∈ fraction, digit.isDigit) →
      NumeralText (digits ++ '.' :: fraction)
  | fraction {digits : List Char} :
      digits ≠ [] → (∀ digit ∈ digits, digit.isDigit) → NumeralText ('.' :: digits)

/-- Whether the lexer takes a text for a name. -/
def isName : List Char → Bool
  | [] => false
  | first :: rest => isNameStart first && rest.all isNameRest

/-! ## Runs -/

theorem take_runLength (condition : Char → Bool) (text : List Char) :
    text.take (runLength condition text) = text.takeWhile condition :=
  (List.prefix_iff_eq_take.mp (List.takeWhile_prefix condition)).symm

theorem drop_runLength (condition : Char → Bool) (text : List Char) :
    text.drop (runLength condition text) = text.dropWhile condition := by
  induction text with
  | nil => rfl
  | cons first rest ih =>
      by_cases holds : condition first
      · simpa [runLength, holds] using ih
      · simp [runLength, holds]

private theorem take_fractionLength (text : List Char) :
    text.take (fractionLength text) = [] ∨
      ∃ fraction, text.take (fractionLength text) = '.' :: fraction ∧
        ∀ digit ∈ fraction, digit.isDigit := by
  unfold fractionLength
  split
  next rest =>
    refine .inr ⟨rest.takeWhile Char.isDigit, ?_, fun digit member => ?_⟩
    · rw [Nat.add_comm, List.take_succ_cons, take_runLength]
    · exact List.all_eq_true.mp List.all_takeWhile digit member
  next => exact .inl rfl

/-! ## First characters -/

/-- The separators, the operators and the parentheses. -/
def punctuation : List Char :=
  [' ', '\t', '\n', '\r', '+', '-', '*', '/', '(', ')']

theorem not_mem_punctuation {condition : Char → Bool} {character : Char}
    (holds : condition character = true)
    (fails : punctuation.any condition = false) : character ∉ punctuation :=
  fun member => List.any_eq_false.mp fails character member holds

theorem munch_of_not_mem_punctuation {first : Char} (other : first ∉ punctuation)
    (rest : List Char) :
    munch first rest =
      if isNameStart first then (.name, runLength isNameRest rest)
      else if first.isDigit then
        (.num, runLength Char.isDigit rest +
          fractionLength (rest.drop (runLength Char.isDigit rest)))
      else if first = '.' ∧ runLength Char.isDigit rest ≠ 0 then
        (.num, runLength Char.isDigit rest)
      else (.symbol, 0) := by
  simp only [punctuation, List.mem_cons, List.not_mem_nil, or_false, not_or] at other
  obtain ⟨space, tab, feed, carriage, add, sub, mul, div, opening, closing⟩ := other
  have noSeparator : ¬isSeparator first = true := by
    simp [isSeparator, space, tab, feed, carriage]
  rw [munch, if_neg noSeparator, if_neg add, if_neg sub, if_neg mul, if_neg div,
    if_neg opening, if_neg closing]

/-! ## Numerals -/

private theorem munch_num {first : Char} {rest : List Char} {taken : Nat}
    (num : munch first rest = (.num, taken)) :
    first.isDigit ∧ taken = runLength Char.isDigit rest +
        fractionLength (rest.drop (runLength Char.isDigit rest)) ∨
      first = '.' ∧ runLength Char.isDigit rest ≠ 0 ∧ taken = runLength Char.isDigit rest := by
  by_cases mark : first ∈ punctuation
  · simp only [punctuation, List.mem_cons, List.not_mem_nil, or_false] at mark
    rcases mark with rfl | rfl | rfl | rfl | rfl | rfl | rfl | rfl | rfl | rfl <;> cases num
  · rw [munch_of_not_mem_punctuation mark] at num
    split at num
    next => cases num
    next =>
      split at num
      next digit =>
        cases num
        exact .inl ⟨digit, rfl⟩
      next =>
        split at num
        next point =>
          cases num
          exact .inr ⟨point.1, point.2, rfl⟩
        next => cases num

theorem numeralText_munch {first : Char} {rest : List Char} {taken : Nat}
    (num : munch first rest = (.num, taken)) : NumeralText (first :: rest.take taken) := by
  have isDigits (text : List Char) : ∀ digit ∈ text.takeWhile Char.isDigit, digit.isDigit :=
    fun digit member => List.all_eq_true.mp List.all_takeWhile digit member
  rcases munch_num num with ⟨isDigit, rfl⟩ | ⟨rfl, some, rfl⟩
  · have front : ∀ digit ∈ first :: rest.takeWhile Char.isDigit, digit.isDigit :=
      fun digit member => (List.mem_cons.mp member).elim (· ▸ isDigit) (isDigits rest digit)
    rw [List.take_add, take_runLength]
    rcases take_fractionLength (rest.drop (runLength Char.isDigit rest)) with
      none | ⟨fraction, same, digits⟩
    · rw [none, List.append_nil]
      exact .whole (List.cons_ne_nil _ _) front
    · rw [same]
      exact .pointed (List.cons_ne_nil first _) front digits
  · rw [take_runLength]
    refine .fraction (fun empty => some ?_) (isDigits rest)
    rw [runLength, empty, List.length_nil]

/-- The lexeme of a number token is a numeral. -/
theorem numeralText_of_mem_tokensFrom {offset : Nat} {text : List Char} {token : Token}
    (member : token ∈ tokensFrom offset text) (kind : token.kind = .num) :
    NumeralText token.lexeme.toList := by
  induction offset, text using tokensFrom.induct with
  | case1 offset => simp [tokensFrom] at member
  | case2 offset first rest taken lexeme stop ih =>
      rw [tokensFrom] at member
      rcases List.mem_cons.mp member with rfl | later
      · rw [String.toList_ofList]
        exact numeralText_munch (Prod.ext kind rfl)
      · exact ih later

end Calculator
