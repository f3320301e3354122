import Calculator.Proofs.Number.Numeral
import Calculator.Proofs.Parser.WordReading

/-!
# Words cut off a text

Names, decimals and symbols at the front of a text are cut off as one word each, if
what follows does not go on with them, and separators are no words.
-/

set_option autoImplicit false

namespace Calculator

/-- The number of bytes of a text. -/
def byteSize (text : List Char) : Nat :=
  (String.ofList text).utf8ByteSize

theorem byteSize_append (front back : List Char) :
    byteSize (front ++ back) = byteSize front + byteSize back := by
  simp only [byteSize, String.ofList_append, String.utf8ByteSize_append]

theorem byteSize_cons (first : Char) (rest : List Char) :
    byteSize (first :: rest) = byteSize [first] + byteSize rest :=
  byteSize_append [first] rest

/-- The words of a text that begins at a byte offset. -/
def wordsFrom (offset : Nat) (text : List Char) : List Token :=
  wordsOf (tokensFrom offset text)

/-- The token of a lexeme at a byte offset. -/
def lexemeAt (kind : TokenKind) (offset : Nat) (lexeme : List Char) : Token :=
  ⟨kind, String.ofList lexeme, ⟨offset, offset + byteSize lexeme⟩⟩

theorem lexeme_lexemeAt (kind : TokenKind) (offset : Nat) (text : String) :
    (lexemeAt kind offset text.toList).lexeme = text := by
  rw [lexemeAt, String.ofList_toList]

theorem wordsFrom_cut {kind : TokenKind} {first : Char} {tail rest : List Char}
    (cut : munch first (tail ++ rest) = (kind, tail.length)) (isWord : kind ≠ .whitespace)
    (offset : Nat) :
    wordsFrom offset (first :: (tail ++ rest)) =
      lexemeAt kind offset (first :: tail) ::
        wordsFrom (offset + byteSize (first :: tail)) rest := by
  have word : (!(lexemeAt kind offset (first :: tail)).isWhitespace) = true := by
    simp [lexemeAt, Token.isWhitespace, isWord]
  simp only [wordsFrom, wordsOf]
  rw [tokensFrom, cut, List.take_left, List.drop_left]
  exact List.filter_cons_of_pos word

/-! ## Separators -/

theorem munch_separator {first : Char} (separates : isSeparator first = true)
    (rest : List Char) : munch first rest = (.whitespace, runLength isSeparator rest) := by
  rw [munch, if_pos separates]

private theorem wordsFrom_separators {first : Char} (separates : isSeparator first = true)
    (rest : List Char) (offset : Nat) :
    wordsFrom offset (first :: rest) =
      wordsFrom (offset + byteSize (first :: rest.takeWhile isSeparator))
        (rest.dropWhile isSeparator) := by
  simp only [wordsFrom, wordsOf]
  rw [tokensFrom, munch_separator separates, take_runLength, drop_runLength]
  rfl

/-- A separator is no word, and does not change the words after it. -/
theorem wordsFrom_separator {first : Char} (separates : isSeparator first = true)
    (rest : List Char) (offset : Nat) :
    wordsFrom offset (first :: rest) = wordsFrom (offset + byteSize [first]) rest := by
  rw [wordsFrom_separators separates]
  cases rest with
  | nil => rfl
  | cons second rest =>
      by_cases more : isSeparator second = true
      · rw [wordsFrom_separators more, List.takeWhile_cons_of_pos more,
          List.dropWhile_cons_of_pos more, byteSize_cons first, Nat.add_assoc]
      · rw [List.takeWhile_cons_of_neg more, List.dropWhile_cons_of_neg more]

/-! ## Runs that end -/

theorem runLength_append {condition : Char → Bool} {run rest : List Char}
    (holds : ∀ character ∈ run, condition character)
    (ends : ∀ next ∈ rest.head?, condition next = false) :
    runLength condition (run ++ rest) = run.length := by
  have stops : rest.takeWhile condition = [] := by
    cases rest with
    | nil => rfl
    | cons next rest => exact List.takeWhile_cons_of_neg (by simp [ends next rfl])
  rw [runLength, List.takeWhile_append_of_pos holds, stops, List.append_nil]

/-- What may follow an operand: nothing, a space or a closing parenthesis. -/
def EndsOperand (rest : List Char) : Prop :=
  ∀ next ∈ rest.head?, next = ' ' ∨ next = ')'

theorem EndsOperand.nil : EndsOperand [] := by
  intro next member
  cases member

theorem EndsOperand.space (rest : List Char) : EndsOperand (' ' :: rest) := by
  intro next member
  cases member
  exact .inl rfl

theorem EndsOperand.closing (rest : List Char) : EndsOperand (')' :: rest) := by
  intro next member
  cases member
  exact .inr rfl

/-- What no word but whitespace goes on with: nothing, or a character that stands in neither
names nor numbers. -/
def EndsWord (rest : List Char) : Prop :=
  ∀ next ∈ rest.head?, isNameRest next = false ∧ next ≠ '.'

theorem EndsOperand.endsWord {rest : List Char} (ends : EndsOperand rest) : EndsWord rest := by
  intro next member
  rcases ends next member with rfl | rfl <;> decide

theorem EndsWord.separator {first : Char} (separates : isSeparator first = true)
    (rest : List Char) : EndsWord (first :: rest) := by
  intro next member
  cases member
  simp only [isSeparator, Bool.or_eq_true, beq_iff_eq] at separates
  rcases separates with ((rfl | rfl) | rfl) | rfl <;> decide

theorem EndsWord.noName {rest : List Char} (ends : EndsWord rest) :
    ∀ next ∈ rest.head?, isNameRest next = false :=
  fun next member => (ends next member).1

theorem EndsWord.noDigit {rest : List Char} (ends : EndsWord rest) :
    ∀ next ∈ rest.head?, next.isDigit = false := by
  intro next member
  have noName := ends.noName next member
  simp only [isNameRest, Char.isAlphanum, Bool.or_eq_false_iff] at noName
  exact noName.1.2

theorem EndsWord.fractionLength_eq {rest : List Char} (ends : EndsWord rest) :
    fractionLength rest = 0 := by
  unfold fractionLength
  split
  next rest => exact absurd rfl (ends '.' rfl).2
  next => rfl

/-! ## Names -/

theorem munch_isNameStart {first : Char} (start : isNameStart first = true) (rest : List Char) :
    munch first rest = (.name, runLength isNameRest rest) := by
  rw [munch_of_not_mem_punctuation (not_mem_punctuation start (by decide)), if_pos start]

theorem wordsFrom_name {name : List Char} (isName : isName name = true) {rest : List Char}
    (ends : EndsOperand rest) (offset : Nat) :
    wordsFrom offset (name ++ rest) =
      lexemeAt .name offset name :: wordsFrom (offset + byteSize name) rest := by
  cases name with
  | nil => cases isName
  | cons first tail =>
      simp only [Calculator.isName, Bool.and_eq_true, List.all_eq_true] at isName
      refine wordsFrom_cut ?_ (by decide) offset
      rw [munch_isNameStart isName.1,
        runLength_append isName.2 ends.endsWord.noName]

/-! ## Decimals -/

private theorem not_isNameStart_of_isDigit {first : Char} (digit : first.isDigit = true) :
    ¬isNameStart first = true := by
  have codes : 'A'.val.toNat = 65 ∧ 'a'.val.toNat = 97 ∧ '9'.val.toNat = 57 := ⟨rfl, rfl, rfl⟩
  simp only [Char.isDigit, Bool.and_eq_true, decide_eq_true_eq, ge_iff_le,
    UInt32.le_iff_toNat_le] at digit
  intro start
  rcases Bool.or_eq_true_iff.mp start with letter | underscore
  · rcases Bool.or_eq_true_iff.mp letter with upper | lower
    · have above := UInt32.le_iff_toNat_le.mp (of_decide_eq_true upper).1
      omega
    · have above := UInt32.le_iff_toNat_le.mp
        (of_decide_eq_true (Bool.and_eq_true_iff.mp lower).1)
      omega
  · rw [beq_iff_eq.mp underscore] at digit
    exact absurd digit (by decide)

theorem munch_isDigit {first : Char} (digit : first.isDigit = true) (rest : List Char) :
    munch first rest = (.num, runLength Char.isDigit rest +
      fractionLength (rest.drop (runLength Char.isDigit rest))) := by
  rw [munch_of_not_mem_punctuation (not_mem_punctuation digit (by decide)),
    if_neg (not_isNameStart_of_isDigit digit), if_pos digit]

theorem wordsFrom_decimal {decimal : List Char} (isDecimal : DecimalText decimal)
    {rest : List Char} (ends : EndsOperand rest) (offset : Nat) :
    wordsFrom offset (decimal ++ rest) =
      lexemeAt .num offset decimal :: wordsFrom (offset + byteSize decimal) rest := by
  have noDigit := ends.endsWord.noDigit
  cases isDecimal with
  | whole some digits =>
      cases decimal with
      | nil => exact absurd rfl some
      | cons first tail =>
          obtain ⟨digit, tailDigits⟩ := List.forall_mem_cons.mp digits
          refine wordsFrom_cut ?_ (by decide) offset
          rw [munch_isDigit digit, runLength_append tailDigits noDigit, List.drop_left,
            ends.endsWord.fractionLength_eq, Nat.add_zero]
  | @pointed digits fraction some areDigits _ fractionDigits =>
      cases digits with
      | nil => exact absurd rfl some
      | cons first tail =>
          obtain ⟨digit, tailDigits⟩ := List.forall_mem_cons.mp areDigits
          have point : ∀ next ∈ ('.' :: (fraction ++ rest)).head?, next.isDigit = false := by
            simp
          have front := runLength_append tailDigits point
          have back := runLength_append fractionDigits noDigit
          have cut : munch first (tail ++ '.' :: fraction ++ rest) =
              (.num, (tail ++ '.' :: fraction).length) := by
            rw [munch_isDigit digit, List.append_assoc, List.cons_append, front, List.drop_left,
              fractionLength, back, List.length_append, List.length_cons, Nat.add_comm 1]
          exact wordsFrom_cut cut (by decide) offset

/-! ## Symbols -/

theorem wordsFrom_symbol {kind : TokenKind} {symbol : Char} {rest : List Char}
    (cut : munch symbol rest = (kind, 0)) (isWord : kind ≠ .whitespace) (offset : Nat) :
    wordsFrom offset (symbol :: rest) =
      lexemeAt kind offset [symbol] :: wordsFrom (offset + byteSize [symbol]) rest :=
  wordsFrom_cut (show munch symbol ([] ++ rest) = (kind, ([] : List Char).length) from cut)
    isWord offset

end Calculator
