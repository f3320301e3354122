import Calculator.Proofs.Parser.WordReading

/-!
# Derivations

A derivation of the grammar keeps the words that it was made from. No list of words
has two derivations, and reading words finds the one they have, as long as no
parenthesis is nested too deeply; otherwise reading stops at the first that is.
-/

set_option autoImplicit false

namespace Calculator

/-- The tokens of one kind. -/
abbrev TokenOf (kind : TokenKind) : Type := { token : Token // token.kind = kind }

/-- The kinds of tokens that stand between two operands. -/
inductive TokenKind.Writes : TokenKind → Operator → Prop where
  | add : Writes .add .add
  | sub : Writes .sub .sub
  | mul : Writes .mul .mul
  | div : Writes .div .div

theorem TokenKind.writes_iff {kind : TokenKind} {operator : Operator} :
    kind.Writes operator ↔ kind.operator? = some operator := by
  constructor
  · intro writes
    cases writes <;> rfl
  · intro read
    cases kind <;> cases read <;> constructor

theorem TokenKind.isOperator_iff {kind : TokenKind} :
    kind.isOperator = true ↔ ∃ operator, kind.Writes operator := by
  simp only [writes_iff, isOperator_eq, Option.isSome_iff_exists]

/-- A token together with the operator that it writes. -/
structure OperatorToken where
  token : Token
  operator : Operator
  writes : token.kind.Writes operator

namespace OperatorToken

theorem operator?_eq (word : OperatorToken) : word.token.kind.operator? = some word.operator :=
  TokenKind.writes_iff.mp word.writes

theorem eq_of_token {first second : OperatorToken} (same : first.token = second.token) :
    first = second := by
  have read := first.operator?_eq
  rw [same, second.operator?_eq] at read
  obtain ⟨token, operator, writes⟩ := first
  cases same
  cases read
  rfl

end OperatorToken

/-- A derivation of `expression := name | num | sub num | ( expression operator
expression )`. -/
inductive Derivation where
  | name (word : TokenOf .name)
  | numeral (word : TokenOf .num)
  | negative (minus : TokenOf .sub) (word : TokenOf .num)
  | operation (opening : TokenOf .openParen) (lhs : Derivation) (operator : OperatorToken)
      (rhs : Derivation) (closing : TokenOf .closeParen)

/-- The operations of a parse tree in the order of their closing parentheses, each with
the region of its parentheses. -/
def ParseTree.operations {α : Type} : ParseTree α → List (Located Operator)
  | .number _ _ | .name _ _ => []
  | .operation lhs operator rhs span =>
      lhs.operations ++ (rhs.operations ++ [⟨operator.value, span⟩])

namespace Derivation

/-- The words that are derived. -/
def words : Derivation → List Token
  | .name word => [word.val]
  | .numeral word => [word.val]
  | .negative minus word => [minus.val, word.val]
  | .operation opening lhs operator rhs closing =>
      opening.val :: lhs.words ++ operator.token :: rhs.words ++ [closing.val]

/-- The greatest number of parentheses that are nested. -/
def nesting : Derivation → Nat
  | .name _ | .numeral _ | .negative _ _ => 0
  | .operation _ lhs _ rhs _ => max lhs.nesting rhs.nesting + 1

/-- The parse tree, if each numeral has a value. -/
def tree? {α : Type} [Numeral α] [Neg α] : Derivation → Option (ParseTree α)
  | .name word => some (.name word.val.lexeme word.val.span)
  | .numeral word =>
      (Numeral.read? word.val.lexeme).map fun value => .number value word.val.span
  | .negative minus word =>
      (Numeral.read? word.val.lexeme).map fun value =>
        .number (-value) (minus.val.span.through word.val.span)
  | .operation opening lhs operator rhs closing => do
      let lhsTree ← lhs.tree?
      let rhsTree ← rhs.tree?
      return .operation lhsTree ⟨operator.operator, operator.token.span⟩ rhsTree
        (opening.val.span.through closing.val.span)

/-- The first parenthesis inside of `levels` others. -/
def tooDeep? : Nat → Derivation → Option Token
  | _, .name _ | _, .numeral _ | _, .negative _ _ => none
  | 0, .operation opening _ _ _ _ => some opening.val
  | levels + 1, .operation _ lhs _ rhs _ => (tooDeep? levels lhs).or (tooDeep? levels rhs)

theorem tooDeep?_eq_none_iff {levels : Nat} {derivation : Derivation} :
    derivation.tooDeep? levels = none ↔ derivation.nesting ≤ levels := by
  induction derivation generalizing levels with
  | name | numeral | negative => simp [tooDeep?, nesting]
  | operation opening lhs operator rhs closing lhsIH rhsIH =>
      cases levels with
      | zero => simp [tooDeep?, nesting]
      | succ levels =>
          rw [tooDeep?, Option.or_eq_none_iff, lhsIH, rhsIH, nesting, Nat.add_le_add_iff_right,
            Nat.max_le]

/-- The kind of the first word, which tells the rules of the grammar apart. -/
def firstKind : Derivation → TokenKind
  | .name _ => .name
  | .numeral _ => .num
  | .negative _ _ => .sub
  | .operation _ _ _ _ _ => .openParen

theorem words_eq_cons (derivation : Derivation) :
    ∃ word rest, derivation.words = word :: rest ∧ word.kind = derivation.firstKind := by
  cases derivation with
  | name word => exact ⟨_, _, rfl, word.property⟩
  | numeral word => exact ⟨_, _, rfl, word.property⟩
  | negative minus word => exact ⟨_, _, rfl, minus.property⟩
  | operation opening lhs operator rhs closing => exact ⟨_, _, rfl, opening.property⟩

private theorem firstKind_eq_of_words_append {first second : Derivation} {rest other : List Token}
    (same : first.words ++ rest = second.words ++ other) :
    first.firstKind = second.firstKind := by
  obtain ⟨word, tail, words, kind⟩ := first.words_eq_cons
  obtain ⟨word', tail', words', kind'⟩ := second.words_eq_cons
  rw [words, words'] at same
  rw [← kind, ← kind', (List.cons.inj same).1]

/-- No derivation begins another one, and none of two derivations has the words of the
other: words are derived in one way at most. -/
theorem eq_of_words_append {first second : Derivation} {rest other : List Token}
    (same : first.words ++ rest = second.words ++ other) : first = second ∧ rest = other := by
  -- The first word tells the rule, so in each case only one rule is left for `second`.
  have kinds := firstKind_eq_of_words_append same
  induction first generalizing second rest other with
  | name word =>
      cases second with
      | name other =>
          obtain ⟨sameWord, sameRest⟩ := List.cons.inj same
          exact ⟨congrArg name (Subtype.ext sameWord), sameRest⟩
      | _ => cases kinds
  | numeral word =>
      cases second with
      | numeral other =>
          obtain ⟨sameWord, sameRest⟩ := List.cons.inj same
          exact ⟨congrArg numeral (Subtype.ext sameWord), sameRest⟩
      | _ => cases kinds
  | negative minus word =>
      cases second with
      | negative otherMinus otherWord =>
          simp only [words, List.cons_append, List.nil_append, List.cons.injEq] at same
          obtain ⟨sameMinus, sameWord, sameRest⟩ := same
          cases Subtype.ext sameMinus
          cases Subtype.ext sameWord
          exact ⟨rfl, sameRest⟩
      | _ => cases kinds
  | operation opening lhs operator rhs closing lhsIH rhsIH =>
      cases second with
      | operation otherOpening otherLhs otherOperator otherRhs otherClosing =>
          simp only [words, List.append_assoc, List.cons_append, List.nil_append,
            List.cons.injEq] at same
          obtain ⟨sameOpening, sameBody⟩ := same
          obtain ⟨rfl, sameTail⟩ := lhsIH sameBody (firstKind_eq_of_words_append sameBody)
          obtain ⟨sameOperator, sameTail⟩ := List.cons.inj sameTail
          obtain ⟨rfl, sameEnd⟩ := rhsIH sameTail (firstKind_eq_of_words_append sameTail)
          obtain ⟨sameClosing, sameRest⟩ := List.cons.inj sameEnd
          cases Subtype.ext sameOpening
          cases Subtype.ext sameClosing
          cases OperatorToken.eq_of_token sameOperator
          exact ⟨rfl, sameRest⟩
      | _ => cases kinds

theorem words_operation_append (opening : TokenOf .openParen) (lhs : Derivation)
    (operator : OperatorToken) (rhs : Derivation) (closing : TokenOf .closeParen)
    (rest : List Token) :
    (operation opening lhs operator rhs closing).words ++ rest =
      opening.val :: (lhs.words ++ operator.token :: (rhs.words ++ closing.val :: rest)) := by
  simp [words]

end Derivation

/-! ## Reading a derivation -/

namespace Words

variable {α : Type}

theorem operatorAfter_cons (operator : OperatorToken) (opening lhs : Span) (rest : List Token) :
    operatorAfter opening lhs (operator.token :: rest) =
      .done ⟨operator.operator, operator.token.span⟩ rest [] := by
  simp only [operatorAfter, operator.operator?_eq]

private theorem closing_cons (closing : TokenOf .closeParen) (opening : Span) (rest : List Token) :
    Words.closing opening (closing.val :: rest) = .done closing.val.span rest [] := by
  simp only [Words.closing, closing.property, if_true]

variable [Numeral α] [Neg α]

private theorem expression_openParen (endSpan : Span) (levels : Nat) (opening : TokenOf .openParen)
    (rest : List Token) :
    expression (α := α) endSpan levels (opening.val :: rest) =
      inside endSpan levels opening.val.span rest := by
  simp [expression, expressionOf, operationOf, token, opening.property]

end Words

namespace Derivation

variable {α : Type} [Numeral α] [Neg α]

theorem exists_operands_of_tree? {opening : TokenOf .openParen} {lhs rhs : Derivation}
    {operator : OperatorToken} {closing : TokenOf .closeParen} {tree : ParseTree α}
    (found : (operation opening lhs operator rhs closing).tree? = some tree) :
    ∃ lhsTree rhsTree, lhs.tree? = some lhsTree ∧ rhs.tree? = some rhsTree ∧
      tree = .operation lhsTree ⟨operator.operator, operator.token.span⟩ rhsTree
        (opening.val.span.through closing.val.span) := by
  simp only [tree?, Option.bind_eq_bind, Option.bind_eq_some_iff] at found
  obtain ⟨lhsTree, lhsFound, rhsTree, rhsFound, same⟩ := found
  cases same
  exact ⟨lhsTree, rhsTree, lhsFound, rhsFound, rfl⟩

/-- Reading gives the tree of a derivation and completes its operations, where the
parentheses may be nested as they are. -/
theorem expression_words {derivation : Derivation} {tree : ParseTree α}
    (found : derivation.tree? = some tree) {levels : Nat} (fits : derivation.nesting ≤ levels)
    (endSpan : Span) (rest : List Token) :
    Words.expression endSpan levels (derivation.words ++ rest) =
      .done tree rest tree.operations := by
  induction derivation generalizing tree levels rest with
  | name word =>
      cases found
      simp [words, Words.expression, Words.expressionOf, Words.literal, Words.nameTree,
        Words.token, word.property, Outcome.map, ParseTree.operations]
  | numeral word =>
      obtain ⟨value, read, rfl⟩ := Option.map_eq_some_iff.mp found
      simp [words, Words.expression, Words.expressionOf, Words.literal, Words.numberTree,
        Words.number, Words.numeral, word.property, read, Outcome.map, ParseTree.operations]
  | negative minus word =>
      obtain ⟨value, read, rfl⟩ := Option.map_eq_some_iff.mp found
      simp [words, Words.expression, Words.expressionOf, Words.literal, Words.numberTree,
        Words.number, Words.numeral, minus.property, word.property, read, Outcome.map,
        ParseTree.operations]
  | operation opening lhs operator rhs closing lhsIH rhsIH =>
      obtain ⟨lhsTree, rhsTree, lhsFound, rhsFound, rfl⟩ := exists_operands_of_tree? found
      cases levels with
      | zero => cases fits
      | succ levels =>
          simp only [nesting] at fits
          have lhsRead := lhsIH lhsFound (show lhs.nesting ≤ levels by omega)
          have rhsRead := rhsIH rhsFound (show rhs.nesting ≤ levels by omega)
          rw [words_operation_append, Words.expression_openParen]
          change Words.enclosed (Words.expression endSpan levels) opening.val.span _ = _
          simp [Words.enclosed, lhsRead, Words.operatorAfter_cons, rhsRead, Words.closing_cons,
            ParseTree.operations]

/-- Reading stops at the first parenthesis that is nested too deeply. -/
theorem expression_words_tooDeep {derivation : Derivation} {tree : ParseTree α}
    (found : derivation.tree? = some tree) {levels : Nat} {opening : Token}
    (deep : derivation.tooDeep? levels = some opening) (endSpan : Span) (rest : List Token) :
    ∃ completed, Words.expression (α := α) endSpan levels (derivation.words ++ rest) =
      .failed ⟨[opening.span], .nestingTooDeep nestingLimit⟩ completed := by
  induction derivation generalizing tree levels rest with
  | name | numeral | negative => simp [tooDeep?] at deep
  | operation first lhs operator rhs closing lhsIH rhsIH =>
      obtain ⟨lhsTree, rhsTree, lhsFound, rhsFound, -⟩ := exists_operands_of_tree? found
      rw [words_operation_append, Words.expression_openParen]
      cases levels with
      | zero =>
          cases deep
          exact ⟨[], rfl⟩
      | succ levels =>
          change ∃ completed,
            Words.enclosed (Words.expression endSpan levels) first.val.span _ = _
          rw [tooDeep?, Option.or_eq_some_iff] at deep
          rcases deep with lhsDeep | ⟨lhsFits, rhsDeep⟩
          · obtain ⟨completed, lhsFails⟩ := lhsIH lhsFound lhsDeep
              (operator.token :: (rhs.words ++ closing.val :: rest))
            exact ⟨completed, by simp [Words.enclosed, lhsFails]⟩
          · have lhsRead := expression_words lhsFound (tooDeep?_eq_none_iff.mp lhsFits) endSpan
            obtain ⟨completed, rhsFails⟩ := rhsIH rhsFound rhsDeep (closing.val :: rest)
            exact ⟨lhsTree.operations ++ completed,
              by simp [Words.enclosed, lhsRead, Words.operatorAfter_cons, rhsFails]⟩

end Derivation

/-! ## Deriving what was read -/

/-- A derivation of the words before `rest`, with its tree, in which no parenthesis is
nested too deeply. -/
structure Derivation.Reads {α : Type} [Numeral α] [Neg α] (derivation : Derivation)
    (levels : Nat) (words : List Token) (tree : ParseTree α) (rest : List Token) : Prop where
  words_append : derivation.words ++ rest = words
  nesting_le : derivation.nesting ≤ levels
  tree?_eq : derivation.tree? = some tree

namespace Words

variable {α : Type} {endSpan opening lhs : Span} {words rest : List Token}
  {completed : List (Located Operator)}

theorem operatorAfter_eq_done {found : Located Operator}
    (read : operatorAfter opening lhs words = .done found rest completed) :
    ∃ operator : OperatorToken, words = operator.token :: rest ∧
      found = ⟨operator.operator, operator.token.span⟩ := by
  cases words with
  | nil => cases read
  | cons word tail =>
      simp only [operatorAfter] at read
      split at read
      next value writes =>
        cases read
        exact ⟨⟨word, value, TokenKind.writes_iff.mpr writes⟩, rfl, rfl⟩
      next => split at read <;> cases read

private theorem closing_eq_done {found : Span}
    (read : Words.closing opening words = .done found rest completed) :
    ∃ closing : TokenOf .closeParen, words = closing.val :: rest ∧ found = closing.val.span := by
  cases words with
  | nil => cases read
  | cons word tail =>
      simp only [Words.closing] at read
      split at read
      next kind =>
        cases read
        exact ⟨⟨word, kind⟩, rfl, rfl⟩
      next => split at read <;> cases read

theorem token_eq_done {kind : TokenKind} {found : Located String}
    (read : token endSpan kind words = .done found rest completed) :
    ∃ word : TokenOf kind, words = word.val :: rest ∧ completed = [] ∧
      found = ⟨word.val.lexeme, word.val.span⟩ := by
  cases words with
  | nil => cases read
  | cons word tail =>
      simp only [token] at read
      split at read
      next same =>
        cases read
        exact ⟨⟨word, same⟩, rfl, rfl, rfl⟩
      next => cases read

private theorem numeral_eq_done [Numeral α] {finish : α → Span → Located α} {found : Located α}
    (read : numeral endSpan finish words = .done found rest completed) :
    ∃ (word : TokenOf .num) (value : α), words = word.val :: rest ∧
      Numeral.read? word.val.lexeme = some value ∧ found = finish value word.val.span := by
  cases words with
  | nil => cases read
  | cons word tail =>
      simp only [numeral] at read
      split at read
      next kind =>
        split at read
        next value reads =>
          cases read
          exact ⟨⟨word, kind⟩, value, rfl, reads, rfl⟩
        next => cases read
      next => cases read

variable [Numeral α] [Neg α] {tree : ParseTree α}

theorem nameTree_eq_done (read : nameTree endSpan words = .done tree rest completed) :
    ∃ word : TokenOf .name, (Derivation.name word).Reads 0 words tree rest := by
  obtain ⟨found, tokenRead, rfl⟩ := Outcome.map_eq_done read
  obtain ⟨word, rfl, -, rfl⟩ := token_eq_done tokenRead
  exact ⟨word, rfl, Nat.le_refl 0, rfl⟩

theorem numberTree_eq_done (read : numberTree endSpan words = .done tree rest completed) :
    (∃ word : TokenOf .num, (Derivation.numeral word).Reads 0 words tree rest) ∨
      ∃ (minus : TokenOf .sub) (word : TokenOf .num),
        (Derivation.negative minus word).Reads 0 words tree rest := by
  obtain ⟨found, numberRead, rfl⟩ := Outcome.map_eq_done read
  cases words with
  | nil => cases numberRead
  | cons word tail =>
      simp only [number] at numberRead
      split at numberRead
      next isMinus =>
        obtain ⟨numeral, value, rfl, reads, rfl⟩ := numeral_eq_done numberRead
        refine .inr ⟨⟨word, isMinus⟩, numeral, rfl, Nat.le_refl 0, ?_⟩
        simp [Derivation.tree?, reads]
      next =>
        obtain ⟨numeral, value, same, reads, rfl⟩ := numeral_eq_done numberRead
        exact .inl ⟨numeral, same.symm, Nat.le_refl 0, by simp [Derivation.tree?, reads]⟩

theorem literal_eq_done (read : literal endSpan words = .done tree rest completed) :
    ∃ derivation : Derivation, derivation.Reads 0 words tree rest := by
  have isNumber (read : numberTree endSpan words = .done tree rest completed) :
      ∃ derivation : Derivation, derivation.Reads 0 words tree rest := by
    rcases numberTree_eq_done read with ⟨word, reads⟩ | ⟨minus, word, reads⟩
    · exact ⟨_, reads⟩
    · exact ⟨_, reads⟩
  unfold literal at read
  split at read
  · obtain ⟨word, reads⟩ := nameTree_eq_done read
    exact ⟨_, reads⟩
  · exact isNumber read
  · exact isNumber read
  · cases read

/-- The body of a parenthesis is derived from derivations of its operands. -/
theorem enclosed_eq_done {operand : List Token → Outcome (ParseTree α)} {levels : Nat}
    (operandDerived : ∀ {words rest completed} {tree : ParseTree α},
      operand words = .done tree rest completed →
        ∃ derivation : Derivation, derivation.Reads levels words tree rest)
    (opening : TokenOf .openParen)
    (read : enclosed operand opening.val.span words = .done tree rest completed) :
    ∃ derivation : Derivation, derivation.Reads (levels + 1) (opening.val :: words) tree rest := by
  obtain ⟨lhsTree, _, _, _, lhsRead, read, -⟩ := Outcome.andThen_eq_done read
  obtain ⟨operatorFound, _, _, _, operatorRead, read, -⟩ := Outcome.andThen_eq_done read
  obtain ⟨rhsTree, _, _, _, rhsRead, read, -⟩ := Outcome.andThen_eq_done read
  obtain ⟨close, _, _, _, closeRead, read, -⟩ := Outcome.andThen_eq_done read
  obtain ⟨lhs, lhsWords, lhsFits, lhsFound⟩ := operandDerived lhsRead
  obtain ⟨operator, rfl, rfl⟩ := operatorAfter_eq_done operatorRead
  obtain ⟨rhs, rhsWords, rhsFits, rhsFound⟩ := operandDerived rhsRead
  obtain ⟨closing, rfl, rfl⟩ := closing_eq_done closeRead
  cases read
  refine ⟨.operation opening lhs operator rhs closing, ?_, ?_, ?_⟩
  · rw [Derivation.words_operation_append, rhsWords, lhsWords]
  · exact Nat.succ_le_succ (Nat.max_le.mpr ⟨lhsFits, rhsFits⟩)
  · simp [Derivation.tree?, lhsFound, rhsFound]

/-- Whatever stands inside of a parenthesis, an expression is derived if that is. -/
theorem operationOf_eq_done {inside : Span → List Token → Outcome (ParseTree α)} {levels : Nat}
    (insideDerived : ∀ (opening : TokenOf .openParen) {words rest completed}
      {tree : ParseTree α}, inside opening.val.span words = .done tree rest completed →
        ∃ derivation : Derivation, derivation.Reads levels (opening.val :: words) tree rest)
    (read : operationOf endSpan inside words = .done tree rest completed) :
    ∃ derivation : Derivation, derivation.Reads levels words tree rest ∧
      derivation.firstKind = .openParen := by
  obtain ⟨opening, _, _, _, openingRead, insideRead, -⟩ := Outcome.andThen_eq_done read
  obtain ⟨word, rfl, -, rfl⟩ := token_eq_done openingRead
  obtain ⟨derivation, reads⟩ := insideDerived word insideRead
  obtain ⟨first, tail, firstWords, kind⟩ := derivation.words_eq_cons
  have same := reads.words_append
  rw [firstWords] at same
  exact ⟨derivation, reads, by rw [← kind, (List.cons.inj same).1, word.property]⟩

private theorem expressionOf_eq_done {inside : Span → List Token → Outcome (ParseTree α)}
    {levels : Nat} (insideDerived : ∀ (opening : TokenOf .openParen) {words rest completed}
      {tree : ParseTree α}, inside opening.val.span words = .done tree rest completed →
        ∃ derivation : Derivation, derivation.Reads levels (opening.val :: words) tree rest)
    (read : expressionOf endSpan inside words = .done tree rest completed) :
    ∃ derivation : Derivation, derivation.Reads levels words tree rest := by
  have leaf (read : literal endSpan words = .done tree rest completed) :
      ∃ derivation : Derivation, derivation.Reads levels words tree rest := by
    obtain ⟨derivation, same, flat, found⟩ := literal_eq_done read
    exact ⟨derivation, same, Nat.le_trans flat (Nat.zero_le levels), found⟩
  unfold expressionOf at read
  split at read
  · obtain ⟨derivation, reads, -⟩ := operationOf_eq_done insideDerived read
    exact ⟨derivation, reads⟩
  · exact leaf read
  · exact leaf read
  · exact leaf read
  · cases read

private theorem inside_eq_done {levels : Nat} (opening : TokenOf .openParen)
    (read : inside endSpan levels opening.val.span words = .done tree rest completed) :
    ∃ derivation : Derivation, derivation.Reads levels (opening.val :: words) tree rest := by
  induction levels generalizing opening words rest completed tree with
  | zero => cases read
  | succ levels ih =>
      refine enclosed_eq_done (fun operandRead => ?_) opening read
      exact expressionOf_eq_done (fun inner _ _ _ _ => ih inner) operandRead

/-- What is read has a derivation, and no parenthesis in it is nested too deeply. -/
theorem expression_eq_done {levels : Nat}
    (read : expression endSpan levels words = .done tree rest completed) :
    ∃ derivation : Derivation, derivation.Reads levels words tree rest :=
  expressionOf_eq_done (fun opening _ _ _ _ => inside_eq_done opening) read

theorem operation_eq_done {levels : Nat}
    (read : operation endSpan levels words = .done tree rest completed) :
    ∃ derivation : Derivation, derivation.Reads levels words tree rest ∧
      derivation.firstKind = .openParen :=
  operationOf_eq_done (fun opening _ _ _ _ => inside_eq_done opening) read

end Words

end Calculator
