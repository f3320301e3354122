import Calculator.Proofs.Parser.Exactness
import Calculator.Proofs.Parser.OpenParentheses
import Calculator.Proofs.Parser.Spelling

/-!
# Reading back parenthesized notation

The parenthesized notation of an expression is read as the same expression, as long as
its parentheses are not nested too deeply, and otherwise refused at the first that is.
-/

set_option autoImplicit false

namespace Calculator

section Written

variable {α : Type} [Numeral α] [Neg α]

/-- A derivation of the words that the parenthesized notation of an expression has, where
it begins at a byte offset. -/
structure Derivation.Writes (derivation : Derivation) (expr : Expr α) (offset : Nat) : Prop where
  reads : derivation.expr? = some expr
  depth_eq : expr.depth = derivation.nesting + 1
  words_append : ∀ rest : List Char, EndsOperand rest →
    wordsFrom offset (expr.parenthesized.toList ++ rest) =
      derivation.words ++ wordsFrom (offset + byteSize expr.parenthesized.toList) rest
  tooDeep : ∀ levels opening, derivation.tooDeep? levels = some opening →
    ∃ before, BeforeTooDeep levels expr.parenthesized.toList before ∧
      opening.span = ⟨offset + byteSize before, offset + byteSize before + 1⟩

omit [Numeral α] [Neg α] in
theorem Operator.wordsFrom_symbol (operator : Operator) (offset : Nat) :
    ∃ word : OperatorToken, word.operator = operator ∧ ∀ rest : List Char,
      wordsFrom offset (operator.symbol :: rest) =
        word.token :: wordsFrom (offset + byteSize [operator.symbol]) rest := by
  suffices cut : ∃ kind : TokenKind, kind.Writes operator ∧
      ∀ rest, munch operator.symbol rest = (kind, 0) by
    obtain ⟨kind, writes, cut⟩ := cut
    have isWord : kind ≠ .whitespace := by
      intro whitespace
      subst whitespace
      cases writes
    exact ⟨⟨lexemeAt kind offset [operator.symbol], operator, writes⟩, rfl,
      fun rest => Calculator.wordsFrom_symbol (cut rest) isWord offset⟩
  cases operator with
  | add => exact ⟨.add, .add, fun _ => rfl⟩
  | sub => exact ⟨.sub, .sub, fun _ => rfl⟩
  | mul => exact ⟨.mul, .mul, fun _ => rfl⟩
  | div => exact ⟨.div, .div, fun _ => rfl⟩

private theorem Derivation.writes_name {name : String} (isName : isName name.toList = true)
    (offset : Nat) :
    Derivation.Writes (.name ⟨lexemeAt .name offset name.toList, rfl⟩)
      (.var name : Expr α) offset where
  reads := congrArg (fun lexeme => some (Expr.var lexeme)) (lexeme_lexemeAt .name offset name)
  depth_eq := rfl
  words_append _ ends := wordsFrom_name isName ends offset
  tooDeep _ _ deep := by simp [tooDeep?] at deep

private theorem Derivation.writes_numeral {value : α} {decimal : String}
    (isDecimal : DecimalText decimal.toList) (text : Numeral.text value = decimal)
    (read : Numeral.read? decimal = some value) (offset : Nat) :
    Derivation.Writes (.numeral ⟨lexemeAt .num offset decimal.toList, rfl⟩)
      (.num value) offset where
  reads := by rw [expr?, lexeme_lexemeAt, read, Option.map_some]
  depth_eq := rfl
  words_append rest ends := by
    rw [Expr.parenthesized, text]
    exact wordsFrom_decimal isDecimal ends offset
  tooDeep _ _ deep := by simp [tooDeep?] at deep

private theorem Derivation.writes_negative {value magnitude : α} {decimal : String}
    (isDecimal : DecimalText decimal.toList) (text : Numeral.text value = "-" ++ decimal)
    (read : Numeral.read? decimal = some magnitude) (opposite : -magnitude = value)
    (offset : Nat) :
    Derivation.Writes (.negative ⟨lexemeAt .sub offset ['-'], rfl⟩
      ⟨lexemeAt .num (offset + byteSize ['-']) decimal.toList, rfl⟩) (.num value) offset where
  reads := by rw [expr?, lexeme_lexemeAt, read, Option.map_some, opposite]
  depth_eq := rfl
  words_append rest ends := by
    have toList : (Numeral.text value).toList = '-' :: decimal.toList := by
      rw [text, String.toList_append]
      rfl
    have minus : munch '-' (decimal.toList ++ rest) = (.sub, 0) := rfl
    rw [Expr.parenthesized, toList, List.cons_append, wordsFrom_symbol minus (by decide),
      wordsFrom_decimal isDecimal ends, byteSize_cons '-' decimal.toList, Nat.add_assoc]
    rfl
  tooDeep _ _ deep := by simp [tooDeep?] at deep

omit [Numeral α] [Neg α] in
private theorem byteSize_operation (lhs : List Char) (symbol : Char) (rest : List Char) :
    byteSize ('(' :: (lhs ++ ([' ', symbol, ' '] ++ rest))) =
      byteSize ['('] + byteSize lhs + byteSize [' '] + byteSize [symbol] + byteSize [' '] +
        byteSize rest := by
  rw [byteSize_cons, byteSize_append, byteSize_append, byteSize_cons ' ' [_, _],
    byteSize_cons _ [' ']]
  omega

/-- The words of an operation: its operands and its operator, each where its text
begins, between the parentheses. -/
theorem wordsFrom_operation {lhs rhs : List Char} {lhsWords rhsWords : List Token}
    {operator : Operator} {word : OperatorToken} {offset symbolOffset closingOffset : Nat}
    (symbolOffset_eq : symbolOffset = offset + byteSize ['('] + byteSize lhs + byteSize [' '])
    (symbol : ∀ rest : List Char, wordsFrom symbolOffset (operator.symbol :: rest) =
      word.token :: wordsFrom (symbolOffset + byteSize [operator.symbol]) rest)
    (lhsCut : ∀ rest : List Char, EndsOperand rest →
      wordsFrom (offset + byteSize ['(']) (lhs ++ rest) =
        lhsWords ++ wordsFrom (offset + byteSize ['('] + byteSize lhs) rest)
    (rhsCut : ∀ rest : List Char, EndsOperand rest →
      wordsFrom (symbolOffset + byteSize [operator.symbol] + byteSize [' ']) (rhs ++ rest) =
        rhsWords ++ wordsFrom closingOffset rest)
    (rest : List Char) :
    wordsFrom offset ('(' :: (lhs ++ ([' ', operator.symbol, ' '] ++ (rhs ++ ')' :: rest)))) =
      lexemeAt .openParen offset ['('] :: (lhsWords ++ word.token ::
        (rhsWords ++ lexemeAt .closeParen closingOffset [')'] ::
          wordsFrom (closingOffset + byteSize [')']) rest)) := by
  have space : isSeparator ' ' = true := by decide
  have opening (text : List Char) : munch '(' text = (.openParen, 0) := rfl
  have closing (text : List Char) : munch ')' text = (.closeParen, 0) := rfl
  simp only [List.cons_append, List.nil_append]
  rw [wordsFrom_symbol (opening _) (by decide), lhsCut _ (.space _), wordsFrom_separator space,
    ← symbolOffset_eq, symbol, wordsFrom_separator space, rhsCut _ (.closing _),
    wordsFrom_symbol (closing _) (by decide)]

/-- An operation is derived from derivations of its operands, each where its text
begins. -/
theorem Derivation.exists_writes_operation (readsBack : TextsReadBack α) (operator : Operator)
    {lhs rhs : Expr α} (lhsSpellable : lhs.Spellable)
    (lhsWritten : ∀ offset, ∃ derivation : Derivation, derivation.Writes lhs offset)
    (rhsWritten : ∀ offset, ∃ derivation : Derivation, derivation.Writes rhs offset)
    (offset : Nat) :
    ∃ derivation : Derivation, derivation.Writes (.binary operator lhs rhs) offset := by
  obtain ⟨symbolOffset, symbolOffset_eq⟩ : ∃ symbolOffset, symbolOffset =
      offset + byteSize ['('] + byteSize lhs.parenthesized.toList + byteSize [' '] := ⟨_, rfl⟩
  obtain ⟨lhsDerivation, lhsReads, lhsDepth, lhsCut, lhsTooDeep⟩ :=
    lhsWritten (offset + byteSize ['('])
  obtain ⟨word, rfl, symbol⟩ := operator.wordsFrom_symbol symbolOffset
  obtain ⟨rhsDerivation, rhsReads, rhsDepth, rhsCut, rhsTooDeep⟩ :=
    rhsWritten (symbolOffset + byteSize [word.operator.symbol] + byteSize [' '])
  refine ⟨.operation ⟨lexemeAt .openParen offset ['('], rfl⟩ lhsDerivation word rhsDerivation
    ⟨lexemeAt .closeParen (symbolOffset + byteSize [word.operator.symbol] + byteSize [' '] +
      byteSize rhs.parenthesized.toList) [')'], rfl⟩, ?reads, ?depth, ?words, ?tooDeep⟩
  case reads =>
    rw [expr?, lhsReads, rhsReads]
    rfl
  case depth =>
    simp only [Expr.depth, nesting, lhsDepth, rhsDepth]
    omega
  case words =>
    intro rest _
    have stop : offset + byteSize (Expr.binary word.operator lhs rhs).parenthesized.toList =
        symbolOffset + byteSize [word.operator.symbol] + byteSize [' '] +
          byteSize rhs.parenthesized.toList + byteSize [')'] := by
      rw [Expr.parenthesized_binary, byteSize_operation, byteSize_append]
      omega
    rw [stop, words_operation_append, Expr.parenthesized_binary, List.cons_append,
      List.append_assoc, List.append_assoc, List.append_assoc, List.singleton_append,
      wordsFrom_operation symbolOffset_eq symbol lhsCut rhsCut]
  case tooDeep =>
    intro levels opening deep
    rw [Expr.parenthesized_binary]
    cases levels with
    | zero =>
        cases deep
        exact ⟨[], .here _, rfl⟩
    | succ levels =>
        rw [tooDeep?, Option.or_eq_some_iff] at deep
        rcases deep with lhsDeep | ⟨lhsFits, rhsDeep⟩
        · obtain ⟨before, beforeLhs, span⟩ := lhsTooDeep levels opening lhsDeep
          refine ⟨'(' :: before, (beforeLhs.append_right _).enclosed, ?_⟩
          rw [span, byteSize_cons '(' before, Nat.add_assoc offset]
        · obtain ⟨before, beforeRhs, span⟩ := rhsTooDeep levels opening rhsDeep
          have shallow : lhs.depth ≤ levels + 1 := by
            rw [lhsDepth]
            exact Nat.succ_le_succ (tooDeep?_eq_none_iff.mp lhsFits)
          refine ⟨_, (beforeRhs.append_right [')']).in_rhs
            (lhsSpellable.opensWithin readsBack shallow) (lhsSpellable.balanced readsBack)
            word.operator, ?_⟩
          rw [span, byteSize_operation]
          simp only [symbolOffset_eq, Span.mk.injEq]
          omega

/-- The words of parenthesized notation have a derivation. -/
theorem Expr.Spellable.exists_writes (readsBack : TextsReadBack α) {expr : Expr α}
    (spellable : expr.Spellable) (offset : Nat) :
    ∃ derivation : Derivation, derivation.Writes expr offset := by
  induction spellable generalizing offset with
  | @num value finite =>
      obtain ⟨unsigned, decimal, ⟨text, read⟩ | ⟨magnitude, text, read, opposite⟩⟩ :=
        readsBack value finite
      · exact ⟨_, Derivation.writes_numeral decimal text read offset⟩
      · exact ⟨_, Derivation.writes_negative decimal text read opposite offset⟩
  | var isName => exact ⟨_, Derivation.writes_name isName offset⟩
  | @binary operator lhs rhs lhsSpellable _ lhsIH rhsIH =>
      exact Derivation.exists_writes_operation readsBack operator lhsSpellable lhsIH rhsIH offset

/-- A source is refused at the first parenthesis that its derivation nests too deeply. -/
theorem Expr.ofText_tooDeep {source : String} {derivation : Derivation} {tree : ParseTree α}
    (words : derivation.words = sourceWords source) (found : derivation.tree? = some tree)
    {opening : Token} (deep : derivation.tooDeep? nestingLimit = some opening) :
    Expr.ofText (α := α) source =
      .error ⟨[opening.span], .nestingTooDeep nestingLimit⟩ := by
  obtain ⟨completed, fails⟩ := derivation.expression_words_tooDeep found deep (sourceEnd source) []
  obtain ⟨word, tail, nonempty, -⟩ := derivation.words_eq_cons
  rw [List.append_nil, nonempty] at fails
  rw [ofText, ParseTree.parse, ParseTree.parseCompleting_eq, ← words, nonempty]
  simp only [Words.whole, fails]
  rfl

private theorem Derivation.Writes.words_eq {derivation : Derivation} {expr : Expr α}
    (writes : derivation.Writes expr 0) : derivation.words = sourceWords expr.parenthesized := by
  have all := writes.words_append [] .nil
  rw [List.append_nil, wordsFrom, wordsFrom, tokensFrom] at all
  exact (all.trans (List.append_nil _)).symm

theorem Derivation.Writes.ofText_eq {derivation : Derivation} {expr : Expr α}
    (writes : derivation.Writes expr 0) (shallow : expr.depth ≤ nestingLimit + 1) :
    Expr.ofText expr.parenthesized = .ok expr := by
  have depth := writes.depth_eq
  have fits : derivation.nesting ≤ nestingLimit := by omega
  exact Expr.ofText_eq_ok.mpr ⟨derivation, ⟨writes.words_eq, fits⟩, writes.reads⟩

theorem Expr.ofText_name {name : String} (isName : isName name.toList = true) :
    Expr.ofText name = .ok (.var name : Expr α) :=
  (Derivation.writes_name isName 0).ofText_eq (by simp [depth])

theorem Expr.ofText_number (readsBack : TextsReadBack α) {value : α}
    (finite : Numeral.isFinite value = true) :
    Expr.ofText (Numeral.text value) = .ok (.num value) := by
  obtain ⟨derivation, writes⟩ := Expr.Spellable.exists_writes readsBack (.num finite) 0
  exact writes.ofText_eq (by simp [depth])

/-- Parenthesized notation is read back as the expression that it writes, if this is at
most one deeper than parentheses may be nested. Otherwise it is refused at the first
parenthesis inside of `nestingLimit` others. -/
theorem ofText_parenthesized (readsBack : TextsReadBack α) (expr : Expr α)
    (spellable : expr.Spellable) :
    (expr.depth ≤ nestingLimit + 1 → Expr.ofText expr.parenthesized = .ok expr) ∧
    (nestingLimit + 1 < expr.depth →
      ∃ before, BeforeTooDeep nestingLimit expr.parenthesized.toList before ∧
        Expr.ofText (α := α) expr.parenthesized =
          .error ⟨[⟨byteSize before, byteSize before + 1⟩], .nestingTooDeep nestingLimit⟩) := by
  obtain ⟨derivation, writes⟩ := spellable.exists_writes readsBack 0
  constructor
  · exact writes.ofText_eq
  · intro deep
    obtain ⟨tree, found, -⟩ := Derivation.expr?_eq_some.mp writes.reads
    have depth := writes.depth_eq
    cases opens : derivation.tooDeep? nestingLimit with
    | none =>
        have fits := Derivation.tooDeep?_eq_none_iff.mp opens
        omega
    | some opening =>
        obtain ⟨before, beforeOpening, span⟩ := writes.tooDeep nestingLimit opening opens
        refine ⟨before, beforeOpening, ?_⟩
        rw [Expr.ofText_tooDeep writes.words_eq found opens, span, Nat.zero_add]

end Written

/-- The difference of `levels` numbers and minus zero, which is the innermost operand. -/
def nestedDifference : Nat → Expr FixedPoint
  | 0 => .num ⟨true, 0, 1⟩
  | levels + 1 => .binary .sub (nestedDifference levels) (.num ⟨true, 25, 1⟩)

private theorem nestedDifference_spellable (levels : Nat) :
    (nestedDifference levels).Spellable := by
  induction levels with
  | zero => exact .num rfl
  | succ levels ih => exact .binary ih (.num rfl)

private theorem depth_nestedDifference (levels : Nat) :
    (nestedDifference levels).depth = levels + 1 := by
  induction levels with
  | zero => rfl
  | succ levels ih =>
      simp only [nestedDifference, Expr.depth, ih]
      omega

theorem ofText_parenthesized_differences :
    TextsReadBack FixedPoint ∧ (nestedDifference 128).Spellable ∧
      (nestedDifference 128).depth ≤ nestingLimit + 1 ∧
      Expr.ofText (nestedDifference 128).parenthesized = .ok (nestedDifference 128) ∧
      (nestedDifference 129).Spellable ∧ nestingLimit + 1 < (nestedDifference 129).depth ∧
      ∃ before, BeforeTooDeep nestingLimit (nestedDifference 129).parenthesized.toList before ∧
        Expr.ofText (α := FixedPoint) (nestedDifference 129).parenthesized =
          .error ⟨[⟨byteSize before, byteSize before + 1⟩], .nestingTooDeep nestingLimit⟩ := by
  have shallow : (nestedDifference 128).depth ≤ nestingLimit + 1 := by
    rw [depth_nestedDifference]
    decide
  have deep : nestingLimit + 1 < (nestedDifference 129).depth := by
    rw [depth_nestedDifference]
    decide
  have shallowSpellable := nestedDifference_spellable 128
  have deepSpellable := nestedDifference_spellable 129
  exact ⟨FixedPoint.textsReadBack, shallowSpellable, shallow,
    (ofText_parenthesized FixedPoint.textsReadBack _ shallowSpellable).1 shallow,
    deepSpellable, deep, (ofText_parenthesized FixedPoint.textsReadBack _ deepSpellable).2 deep⟩

end Calculator
