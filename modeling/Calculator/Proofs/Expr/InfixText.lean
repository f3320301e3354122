import Mathlib.Algebra.Field.Rat
import Calculator.Proofs.Expr.Evaluation
import Calculator.Proofs.Number.Field
import Calculator.Proofs.Number.Rational
import Calculator.Proofs.Parser.Concatenation
import Calculator.Proofs.Parser.Infix
import Calculator.Proofs.Parser.RoundTrip

/-!
# Infix notation and its grammar

Infix notation leaves out the parentheses of a right operand that binds as tightly as an
operator whose operands may be exchanged, so it is read as another expression: `a * (b / c)`
is written `a * b / c`, which is `(a * b) / c`. Over exact arithmetic both have the same
value, or the same error.
-/

set_option autoImplicit false

namespace Calculator

/-! ## Operands that move to the left -/

/-- An operator whose operands may be exchanged, with an operator of its precedence on its
right, may be applied first. -/
theorem Operator.result_regroup {K : Type} [Field K] [DecidableEq K] {operator inner : Operator}
    (commutes : operator.commutes = true) (same : inner.precedence = operator.precedence)
    (first second third : K) :
    (operator.result first second).bind (fun value => inner.result value third) =
      (inner.result second third).bind (operator.result first) := by
  cases operator with
  | sub | div => cases commutes
  | add =>
      cases inner with
      | mul | div => cases same
      | add => exact congrArg Except.ok (add_assoc first second third)
      | sub => exact congrArg Except.ok (add_sub_assoc first second third)
  | mul =>
      cases inner with
      | add | sub => cases same
      | mul => exact congrArg Except.ok (mul_assoc first second third)
      | div =>
          by_cases zero : third = 0
          · rw [zero, result_div_zero]
            exact result_div_zero _
          · rw [result_div zero]
            exact (result_div zero _).trans (congrArg Except.ok (mul_div_assoc first second third))

private theorem Expr.evaluate_regroup {K : Type} [Field K] [DecidableEq K]
    {operator inner : Operator}
    (commutes : operator.commutes = true) (same : inner.precedence = operator.precedence)
    (first second third : Expr K) (context : Context K) :
    (binary inner (binary operator first second) third).evaluate context =
      (binary operator first (binary inner second third)).evaluate context := by
  simp only [evaluate]
  cases first.evaluate context with
  | error error => rfl
  | ok firstValue =>
      cases second.evaluate context with
      | error error => rfl
      | ok secondValue =>
          cases third.evaluate context with
          | ok thirdValue =>
              exact Operator.result_regroup commutes same firstValue secondValue thirdValue
          | error error =>
              cases operator with
              | add | mul => rfl
              | sub | div => cases commutes

/-! ## The words of a text -/

private theorem wordsFrom_between (lhs : List Char) (operator : Operator) (rhs : List Char) :
    ∃ (word : OperatorToken) (bytes : Nat), word.operator = operator ∧
      wordsFrom 0 (lhs ++ ([' ', operator.symbol, ' '] ++ rhs)) =
        wordsFrom 0 lhs ++ word.token :: (wordsFrom 0 rhs).map (Token.shift bytes) := by
  have space : isSeparator ' ' = true := by decide
  obtain ⟨word, writes, symbol⟩ := operator.wordsFrom_symbol (0 + byteSize lhs + byteSize [' '])
  refine ⟨word, 0 + byteSize lhs + byteSize [' '] + byteSize [operator.symbol] + byteSize [' '],
    writes, ?_⟩
  simp only [List.cons_append, List.nil_append]
  rw [wordsFrom_append (.space _), wordsFrom_separator space, symbol, wordsFrom_separator space,
    ← wordsFrom_add, Nat.add_zero]

private theorem wordsFrom_enclosed (text : List Char) :
    ∃ (opening : TokenOf .openParen) (closing : TokenOf .closeParen) (bytes : Nat),
      wordsFrom 0 ('(' :: (text ++ [')'])) =
        opening.val :: ((wordsFrom 0 text).map (Token.shift bytes) ++ [closing.val]) := by
  have isOpening : munch '(' (text ++ [')']) = (.openParen, 0) := rfl
  have isClosing : munch ')' [] = (.closeParen, 0) := rfl
  refine ⟨⟨lexemeAt .openParen 0 ['('], rfl⟩,
    ⟨lexemeAt .closeParen (0 + byteSize ['('] + byteSize text) [')'], rfl⟩,
    0 + byteSize ['('], ?_⟩
  rw [wordsFrom_symbol isOpening (by decide), wordsFrom_append (.closing _),
    wordsFrom_symbol isClosing (by decide), wordsFrom_nil, ← wordsFrom_add, Nat.add_zero]

namespace Expr

variable {α : Type} [Numeral α] [Neg α]

/-- Names are lexical names, and the text of each number is read as that number. -/
inductive Legible : Expr α → Prop where
  | num {value : α} {span : Span} :
      Production.number.parse (Numeral.text value) = .ok (.tree (.number value span)) →
      Legible (.num value)
  | var {name : String} : isName name.toList = true → Legible (.var name)
  | binary {operator : Operator} {lhs rhs : Expr α} :
      lhs.Legible → rhs.Legible → Legible (.binary operator lhs rhs)

/-- Where the texts of finite numbers read back, what can be spelled is legible. -/
theorem Spellable.legible (readsBack : TextsReadBack α) {expr : Expr α}
    (spellable : expr.Spellable) : expr.Legible := by
  induction spellable with
  | @num value finite =>
      obtain ⟨derivation, reads, depth, words_append, -⟩ :=
        (Spellable.num finite).exists_writes readsBack 0
      obtain ⟨tree, found, same⟩ := Derivation.expr?_eq_some.mp reads
      have words := words_append [] .nil
      rw [List.append_nil, wordsFrom_nil, List.append_nil] at words
      have flat : derivation.nesting = 0 := (Nat.succ.inj depth).symm
      have spells : derivation.Spells (Numeral.text value) :=
        ⟨words.symm, by rw [flat]; exact Nat.zero_le _⟩
      cases tree with
      | name | operation => cases same
      | number read span =>
          cases same
          refine .num ((Production.parse_eq_ok (by decide)).mpr
            ⟨derivation, _, spells, ?_, found, rfl⟩)
          cases derivation with
          | numeral | negative => trivial
          | name => cases found
          | operation => cases flat
  | var lexical => exact .var lexical
  | binary _ _ lhsIH rhsIH => exact .binary lhsIH rhsIH

private theorem infix_number {value : α} {span : Span}
    (reads : Production.number.parse (Numeral.text value) = .ok (.tree (.number value span))) :
    Infix .factor (wordsFrom 0 (Numeral.text value).toList) (.num value) := by
  obtain ⟨derivation, tree, spells, derives, found, same⟩ :=
    (Production.parse_eq_ok (by decide)).mp reads
  cases same
  have words : derivation.words = wordsFrom 0 (Numeral.text value).toList := spells.words_eq
  rw [← words]
  cases derivation with
  | name | operation => cases derives
  | numeral word =>
      obtain ⟨magnitude, read, same⟩ := Option.map_eq_some_iff.mp found
      cases same
      exact .numeral word read
  | negative minus word =>
      obtain ⟨magnitude, read, same⟩ := Option.map_eq_some_iff.mp found
      cases same
      exact .negative minus word read

private theorem infix_name {name : String} (lexical : isName name.toList = true) :
    Infix .factor (wordsFrom 0 name.toList) (.var name : Expr α) := by
  have words := wordsFrom_name lexical .nil 0
  rw [List.append_nil, wordsFrom_nil] at words
  have reading : Infix .factor [lexemeAt .name 0 name.toList] (.var _ : Expr α) :=
    .name ⟨lexemeAt .name 0 name.toList, rfl⟩
  rw [lexeme_lexemeAt] at reading
  rwa [words]

private theorem toList_encloseIf_true (text : String) :
    (encloseIf true text).toList = '(' :: (text.toList ++ [')']) := by
  simp [encloseIf]

omit [Neg α] in
private theorem toList_text_binary (operator : Operator) (lhs rhs : Expr α) :
    (binary operator lhs rhs).text.toList =
      (encloseIf (lhs.needsParentheses operator false) lhs.text).toList ++
        ([' ', operator.symbol, ' '] ++
          (encloseIf (rhs.needsParentheses operator (!operator.commutes)) rhs.text).toList) := by
  simp [text, Operator.text]

end Expr

/-! ## Texts that are read with the values of an expression -/

section Exact

variable {K : Type} [Field K] [DecidableEq K] [Numeral K]

/-- A text is read as an expression that has the value of `expr`, or the same error, in
every context. -/
def ReadsAs (part : InfixPart K) (text : List Char) (expr : Expr K) : Prop :=
  ∃ reading : Expr K, Infix part (wordsFrom 0 text) reading ∧
    ∀ context, reading.evaluate context = expr.evaluate context

namespace ReadsAs

variable {text lhsText rhsText : List Char} {expr lhs rhs : Expr K} {operator : Operator}

private theorem chain {precedence : Precedence} (reads : ReadsAs (.operand precedence) text expr) :
    ReadsAs (.chain precedence) text expr := by
  obtain ⟨reading, derived, same⟩ := reads
  exact ⟨reading, derived.chain_of_operand, same⟩

private theorem operand {precedence : Precedence} (reads : ReadsAs .factor text expr) :
    ReadsAs (.operand precedence) text expr := by
  cases precedence with
  | factor => exact reads
  | term => exact chain (show ReadsAs (.operand .factor) text expr from reads)

private theorem whole {precedence : Precedence} (reads : ReadsAs (.chain precedence) text expr) :
    ReadsAs (.chain .term) text expr := by
  cases precedence with
  | term => exact reads
  | factor => exact chain (show ReadsAs (.operand .term) text expr from reads)

private theorem enclosed (reads : ReadsAs (.chain .term) text expr) :
    ReadsAs .factor ('(' :: (text ++ [')'])) expr := by
  obtain ⟨reading, derived, same⟩ := reads
  obtain ⟨opening, closing, bytes, words⟩ := wordsFrom_enclosed text
  refine ⟨reading, ?_, same⟩
  rw [words]
  exact .enclosed opening closing (derived.shift bytes)

private theorem binary (lhsReads : ReadsAs (.chain operator.precedence) lhsText lhs)
    (rhsReads : ReadsAs (.operand operator.precedence) rhsText rhs) :
    ReadsAs (.chain operator.precedence) (lhsText ++ ([' ', operator.symbol, ' '] ++ rhsText))
      (.binary operator lhs rhs) := by
  obtain ⟨lhsReading, lhsDerived, lhsSame⟩ := lhsReads
  obtain ⟨rhsReading, rhsDerived, rhsSame⟩ := rhsReads
  obtain ⟨word, bytes, rfl, words⟩ := wordsFrom_between lhsText operator rhsText
  refine ⟨.binary word.operator lhsReading rhsReading, ?_, fun context => ?_⟩
  · rw [words]
    exact lhsDerived.chain_concat (Precedence.separates_iff.mpr rfl) (rhsDerived.shift bytes)
  · exact Expr.evaluate_binary_congr (lhsSame context) (rhsSame context)

end ReadsAs

/-- What follows the first operand of a chain on the right of an operator whose operands
may be exchanged is read behind that operator with the same result. -/
theorem Infix.remainder_regroup {operator : Operator} (commutes : operator.commutes = true)
    {words : List Token} {lhs start grouped expr : Expr K}
    (remainder : Infix (.remainder operator.precedence start) words expr)
    (same : ∀ context, grouped.evaluate context =
      (Expr.binary operator lhs start).evaluate context) :
    ∃ reading, Infix (.remainder operator.precedence grouped) words reading ∧
      ∀ context, reading.evaluate context = (Expr.binary operator lhs expr).evaluate context := by
  -- Each operator of the remainder is applied to `grouped` where it was applied to `start`,
  -- and that the two differ by `lhs` is what the induction carries along.
  generalize samePart : InfixPart.remainder operator.precedence start = part at remainder
  induction remainder generalizing start grouped with
  | stop =>
      cases samePart
      exact ⟨grouped, .stop, same⟩
  | @more precedence inner words rest start rhs expr separates operand _ _ remainderIH =>
      cases samePart
      have regrouped : ∀ context, (Expr.binary inner.operator grouped rhs).evaluate context =
          (Expr.binary operator lhs (.binary inner.operator start rhs)).evaluate context := by
        intro context
        rw [← Expr.evaluate_regroup commutes (Precedence.separates_iff.mp separates)]
        exact Expr.evaluate_binary_congr (same context) rfl
      obtain ⟨reading, derived, readingSame⟩ := remainderIH regrouped rfl
      exact ⟨reading, .more inner separates operand derived, readingSame⟩
  | _ => cases samePart

namespace ReadsAs

variable {text lhsText rhsText : List Char} {expr lhs rhs : Expr K} {operator : Operator}

/-- An operator whose operands may be exchanged may have a chain on its right. -/
theorem binary_of_commutes (commutes : operator.commutes = true)
    (lhsReads : ReadsAs (.chain operator.precedence) lhsText lhs)
    (rhsReads : ReadsAs (.chain operator.precedence) rhsText rhs) :
    ReadsAs (.chain operator.precedence) (lhsText ++ ([' ', operator.symbol, ' '] ++ rhsText))
      (.binary operator lhs rhs) := by
  obtain ⟨lhsReading, lhsDerived, lhsSame⟩ := lhsReads
  obtain ⟨rhsReading, rhsDerived, rhsSame⟩ := rhsReads
  obtain ⟨word, bytes, rfl, words⟩ := wordsFrom_between lhsText operator rhsText
  have shifted := rhsDerived.shift bytes
  unfold ReadsAs
  rw [words]
  generalize (wordsFrom 0 rhsText).map (Token.shift bytes) = tail at shifted
  cases shifted with
  | @chain _ front rest start _ first remainder =>
      have grouped := lhsDerived.chain_concat (Precedence.separates_iff.mpr rfl) first
      have unchanged (context : Context K) :
          (Expr.binary word.operator lhsReading start).evaluate context =
            (Expr.binary word.operator lhsReading start).evaluate context := rfl
      obtain ⟨reading, derived, same⟩ := remainder.remainder_regroup commutes unchanged
      refine ⟨reading, ?_, fun context => ?_⟩
      · have all := grouped.chain_append derived
        rwa [List.append_assoc, List.cons_append] at all
      · rw [same]
        exact Expr.evaluate_binary_congr (lhsSame context) (rhsSame context)

end ReadsAs

/-! ## Infix notation -/

namespace Expr

/-- The part of infix notation that the text of an expression is. -/
def infixPart : Expr K → InfixPart K
  | .num _ | .var _ => .factor
  | .binary operator _ _ => .chain operator.precedence

variable {expr : Expr K} {text : String}

private theorem readsAs_whole (reads : ReadsAs expr.infixPart text.toList expr) :
    ReadsAs (.chain .term) text.toList expr := by
  cases expr with
  | num | var => exact ReadsAs.chain reads.operand
  | binary => exact reads.whole

/-- An operand that may be a chain of its own is enclosed if it binds less tightly. -/
theorem readsAs_chain (operator : Operator) (reads : ReadsAs expr.infixPart text.toList expr) :
    ReadsAs (.chain operator.precedence)
      (encloseIf (expr.needsParentheses operator false) text).toList expr := by
  cases needed : expr.needsParentheses operator false with
  | true =>
      rw [toList_encloseIf_true]
      exact (readsAs_whole reads).enclosed.operand.chain
  | false =>
      change ReadsAs _ text.toList expr
      cases expr with
      | num | var => exact ReadsAs.chain reads.operand
      | binary inner lhs rhs =>
          simp only [needsParentheses, infixPart] at needed reads
          generalize inner.precedence = own at needed reads
          generalize operator.precedence = outer at needed
          cases own with
          | term =>
              cases outer with
              | term => exact reads
              | factor => cases needed
          | factor =>
              cases outer with
              | term => exact reads.whole
              | factor => exact reads

/-- An operand that may be no chain is enclosed unless it binds more tightly. -/
theorem readsAs_operand (operator : Operator) (reads : ReadsAs expr.infixPart text.toList expr) :
    ReadsAs (.operand operator.precedence)
      (encloseIf (expr.needsParentheses operator true) text).toList expr := by
  cases needed : expr.needsParentheses operator true with
  | true =>
      rw [toList_encloseIf_true]
      exact (readsAs_whole reads).enclosed.operand
  | false =>
      change ReadsAs _ text.toList expr
      cases expr with
      | num | var => exact reads.operand
      | binary inner lhs rhs =>
          simp only [needsParentheses, infixPart] at needed reads
          generalize inner.precedence = own at needed reads
          generalize operator.precedence = outer at needed
          cases own with
          | term => cases outer <;> cases needed
          | factor =>
              cases outer with
              | term => exact reads
              | factor => cases needed

private theorem Legible.readsAs_text {expr : Expr K} (legible : expr.Legible) :
    ReadsAs expr.infixPart expr.text.toList expr := by
  induction legible with
  | num reads => exact ⟨_, infix_number reads, fun _ => rfl⟩
  | var lexical => exact ⟨_, infix_name lexical, fun _ => rfl⟩
  | @binary operator lhs rhs _ _ lhsIH rhsIH =>
      rw [toList_text_binary]
      have lhsReads := readsAs_chain operator lhsIH
      cases commutes : operator.commutes with
      | true => exact .binary_of_commutes commutes lhsReads (readsAs_chain operator rhsIH)
      | false => exact .binary lhsReads (readsAs_operand operator rhsIH)

end Expr

/-- Infix notation is read as one expression only, which has the value of the expression
that it writes, or the same error, in every context. -/
theorem infix_text_faithful (expr : Expr K) (legible : expr.Legible) :
    ∃ reading : Expr K, Infix (.chain .term) (sourceWords expr.text) reading ∧
      (∀ other, Infix (.chain .term) (sourceWords expr.text) other → other = reading) ∧
      ∀ context, reading.evaluate context = expr.evaluate context := by
  obtain ⟨reading, derived, same⟩ := expr.readsAs_whole legible.readsAs_text
  exact ⟨reading, derived, fun other otherDerived => otherDerived.unique derived, same⟩

end Exact

/-- A quotient on the right of a product, in a sum with a difference on its right. -/
def rightNested : Expr ℚ :=
  .add (.mul (.var "a") (.div (.var "b") (.var "c"))) (.sub (.var "x") (.num (-5 / 2)))

example : rightNested.text = "a * b / c + x - -2.5" := by decide +kernel

theorem infix_text_faithful_rightNested :
    rightNested.Legible ∧
      ∃ reading : Expr ℚ, Infix (.chain .term) (sourceWords rightNested.text) reading ∧
        (∀ other, Infix (.chain .term) (sourceWords rightNested.text) other → other = reading) ∧
        ∀ context, reading.evaluate context = rightNested.evaluate context := by
  have isFinite : Numeral.isFinite (-5 / 2 : ℚ) = true := by decide +kernel
  have product : (Expr.mul (.var "a") (.div (.var "b") (.var "c")) : Expr ℚ).Spellable :=
    .binary (.var (by decide)) (.binary (.var (by decide)) (.var (by decide)))
  have difference : (Expr.sub (.var "x") (.num (-5 / 2)) : Expr ℚ).Spellable :=
    .binary (.var (by decide)) (.num isFinite)
  have legible : rightNested.Legible :=
    Expr.Spellable.legible textsReadBack_rat (.binary product difference)
  exact ⟨legible, infix_text_faithful rightNested legible⟩

end Calculator
