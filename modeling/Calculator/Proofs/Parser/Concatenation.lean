import Calculator.Proofs.Parser.Spelling

/-!
# Words of texts put together

A text is cut into the same words wherever it begins, and also in front of a space or a
closing parenthesis, since no word but whitespace goes on with these.
-/

set_option autoImplicit false

namespace Calculator

/-! ## Where a text begins -/

theorem wordsFrom_nil (offset : Nat) : wordsFrom offset [] = [] := by
  rw [wordsFrom, tokensFrom]
  rfl

theorem byteSize_nil : byteSize [] = 0 := rfl

def Span.shift (bytes : Nat) (span : Span) : Span :=
  ⟨bytes + span.start, bytes + span.stop⟩

def Token.shift (bytes : Nat) (token : Token) : Token :=
  { token with span := token.span.shift bytes }

private theorem tokensFrom_add (bytes offset : Nat) (text : List Char) :
    tokensFrom (bytes + offset) text = (tokensFrom offset text).map (Token.shift bytes) := by
  induction offset, text using tokensFrom.induct with
  | case1 offset => simp [tokensFrom]
  | case2 offset first rest taken lexeme stop ih =>
      rw [tokensFrom, tokensFrom, List.map_cons, ← ih, Nat.add_assoc]
      rfl

theorem wordsFrom_add (bytes offset : Nat) (text : List Char) :
    wordsFrom (bytes + offset) text = (wordsFrom offset text).map (Token.shift bytes) := by
  simp only [wordsFrom, wordsOf, tokensFrom_add, List.filter_map]
  rfl

/-! ## What follows a text -/

private theorem runLength_le (condition : Char → Bool) (text : List Char) :
    runLength condition text ≤ text.length :=
  (List.takeWhile_sublist condition).length_le

private theorem fractionLength_le (text : List Char) : fractionLength text ≤ text.length := by
  unfold fractionLength
  split
  next rest =>
    have digits := runLength_le Char.isDigit rest
    rw [List.length_cons]
    omega
  next => exact Nat.zero_le _

private theorem munch_mark {first : Char} (solid : ¬isSeparator first = true)
    (mark : first ∈ punctuation) :
    ∃ kind : TokenKind, kind ≠ .whitespace ∧ ∀ rest, munch first rest = (kind, 0) := by
  simp only [punctuation, List.mem_cons, List.not_mem_nil, or_false] at mark
  rcases mark with rfl | rfl | rfl | rfl | rfl | rfl | rfl | rfl | rfl | rfl
  · exact absurd rfl solid
  · exact absurd rfl solid
  · exact absurd rfl solid
  · exact absurd rfl solid
  · exact ⟨.add, by decide, fun _ => rfl⟩
  · exact ⟨.sub, by decide, fun _ => rfl⟩
  · exact ⟨.mul, by decide, fun _ => rfl⟩
  · exact ⟨.div, by decide, fun _ => rfl⟩
  · exact ⟨.openParen, by decide, fun _ => rfl⟩
  · exact ⟨.closeParen, by decide, fun _ => rfl⟩

private theorem munch_ne_whitespace {first : Char} (solid : ¬isSeparator first = true)
    (rest : List Char) : (munch first rest).1 ≠ .whitespace := by
  by_cases mark : first ∈ punctuation
  · obtain ⟨kind, isWord, cut⟩ := munch_mark solid mark
    rw [cut]
    exact isWord
  · rw [munch_of_not_mem_punctuation mark]
    repeat' split
    all_goals exact TokenKind.noConfusion

theorem munch_le (first : Char) (rest : List Char) : (munch first rest).2 ≤ rest.length := by
  by_cases separates : isSeparator first = true
  · rw [munch_separator separates]
    exact runLength_le _ _
  by_cases mark : first ∈ punctuation
  · obtain ⟨kind, -, cut⟩ := munch_mark separates mark
    rw [cut]
    exact Nat.zero_le _
  · have digits := runLength_le Char.isDigit rest
    have fraction := fractionLength_le (rest.drop (runLength Char.isDigit rest))
    rw [List.length_drop] at fraction
    rw [munch_of_not_mem_punctuation mark]
    split
    next => exact runLength_le _ _
    next =>
      split
      next =>
        dsimp only
        omega
      next =>
        split
        next => exact digits
        next => exact Nat.zero_le _

private theorem runLength_append_of_fails {condition : Char → Bool} {rest : List Char}
    (fails : ∀ next ∈ rest.head?, condition next = false) (text : List Char) :
    runLength condition (text ++ rest) = runLength condition text := by
  induction text with
  | nil =>
      cases rest with
      | nil => rfl
      | cons next rest => simp [runLength, fails next rfl]
  | cons first text ih =>
      by_cases holds : condition first
      · simpa [runLength, holds] using ih
      · simp [runLength, holds]

private theorem EndsWord.fractionLength_append {rest : List Char} (ends : EndsWord rest)
    (text : List Char) : fractionLength (text ++ rest) = fractionLength text := by
  cases text with
  | nil =>
      rw [List.nil_append, ends.fractionLength_eq]
      rfl
  | cons first text =>
      have digits := runLength_append_of_fails ends.noDigit text
      unfold fractionLength
      split <;> simp_all

theorem EndsWord.munch_append {first : Char} {rest : List Char} (ends : EndsWord rest)
    (solid : ¬isSeparator first = true) (text : List Char) :
    munch first (text ++ rest) = munch first text := by
  have fraction : fractionLength ((text ++ rest).drop (runLength Char.isDigit text)) =
      fractionLength (text.drop (runLength Char.isDigit text)) := by
    rw [List.drop_append_of_le_length (runLength_le _ _), ends.fractionLength_append]
  simp only [munch, runLength_append_of_fails ends.noDigit, runLength_append_of_fails ends.noName,
    fraction]
  rw [if_neg solid, if_neg solid]

/-- A text in front of a space or a closing parenthesis has the words that it has alone. -/
theorem wordsFrom_append {rest : List Char} (ends : EndsOperand rest) (offset : Nat)
    (text : List Char) :
    wordsFrom offset (text ++ rest) =
      wordsFrom offset text ++ wordsFrom (offset + byteSize text) rest := by
  induction length : text.length using Nat.strongRecOn generalizing text offset with
  | ind length ih =>
      subst length
      cases text with
      | nil => rw [List.nil_append, wordsFrom_nil, List.nil_append, byteSize_nil, Nat.add_zero]
      | cons first tail =>
          by_cases separates : isSeparator first = true
          · have shorter : tail.length < (first :: tail).length := Nat.lt_succ_self _
            have tailWords := ih tail.length shorter (offset + byteSize [first]) tail rfl
            rw [List.cons_append, wordsFrom_separator separates, wordsFrom_separator separates,
              tailWords, byteSize_cons first tail, Nat.add_assoc]
          · -- The first token takes the front of the tail, and the back is cut as before.
            obtain ⟨front, back, rfl, cut⟩ : ∃ front back, tail = front ++ back ∧
                munch first (front ++ back) = ((munch first tail).1, front.length) := by
              have taken := munch_le first tail
              refine ⟨tail.take (munch first tail).2, tail.drop (munch first tail).2, ?_, ?_⟩
              · exact (List.take_append_drop _ tail).symm
              · rw [List.take_append_drop, List.length_take_of_le taken]
            have isWord := munch_ne_whitespace separates (front ++ back)
            have cutMore : munch first (front ++ (back ++ rest)) =
                ((munch first (front ++ back)).1, front.length) := by
              rw [← List.append_assoc, ends.endsWord.munch_append separates, cut]
            have shorter : back.length < (first :: (front ++ back)).length := by
              rw [List.length_cons, List.length_append]
              omega
            have size : byteSize (first :: (front ++ back)) =
                byteSize (first :: front) + byteSize back :=
              byteSize_append (first :: front) back
            rw [List.cons_append, List.append_assoc, wordsFrom_cut cutMore isWord,
              wordsFrom_cut cut isWord, ih back.length shorter _ back rfl, size, Nat.add_assoc,
              List.cons_append]

end Calculator
