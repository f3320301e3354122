import Calculator.Proofs.Number.FixedPoint
import Calculator.Proofs.Parser.Derivation
import Calculator.Proofs.Parser.GrammarAgreement

/-!
# What a source is read as

A source is read as an expression exactly if its words have a derivation that nests at
most `nestingLimit` parentheses, and then as the tree of that derivation. The other
productions accept the derivations of their own rules, with the same trees.
-/

set_option autoImplicit false

namespace Calculator

/-- The derivations that end in a rule of a production. -/
def Production.Derives : Production → Derivation → Prop
  | .expression, _ => True
  | .operation, .operation _ _ _ _ _ => True
  | .literal, .name _ | .literal, .numeral _ | .literal, .negative _ _ => True
  | .number, .numeral _ | .number, .negative _ _ => True
  | .name, .name _ => True
  | _, _ => False

/-- A derivation of the words of a source that nests at most 128 parentheses. -/
structure Derivation.Spells (derivation : Derivation) (source : String) : Prop where
  words_eq : derivation.words = sourceWords source
  nesting_le : derivation.nesting ≤ 128

theorem Derivation.Spells.fits {derivation : Derivation} {source : String}
    (spells : derivation.Spells source) : derivation.nesting ≤ nestingLimit :=
  spells.nesting_le

/-- The expression that is derived, if each numeral has a value. -/
def Derivation.expr? {α : Type} [Numeral α] [Neg α] : Derivation → Option (Expr α)
  | .name word => some (.var word.val.lexeme)
  | .numeral word => (Numeral.read? word.val.lexeme).map fun value => .num value
  | .negative _ word => (Numeral.read? word.val.lexeme).map fun value => .num (-value)
  | .operation _ lhs operator rhs _ => do
      return .binary operator.operator (← lhs.expr?) (← rhs.expr?)

section Productions

variable {α : Type} [Numeral α] [Neg α]

/-- A production reads the derivations of its rules as an expression is read. -/
theorem Words.read_words {production : Production} {derivation : Derivation}
    (derives : production.Derives derivation) (endSpan : Span) (levels : Nat)
    (rest : List Token) :
    Words.read endSpan levels production (derivation.words ++ rest) =
      (Words.expression (α := α) endSpan levels (derivation.words ++ rest)).map .tree := by
  cases derivation with
  | name word =>
      cases production with
      | expression | literal | name =>
          simp [Derivation.words, Words.read, Words.expression, Words.expressionOf, Words.literal,
            word.property]
      | _ => exact False.elim derives
  | numeral word =>
      cases production with
      | expression | literal | number =>
          simp [Derivation.words, Words.read, Words.expression, Words.expressionOf, Words.literal,
            word.property]
      | _ => exact False.elim derives
  | negative minus word =>
      cases production with
      | expression | literal | number =>
          simp [Derivation.words, Words.read, Words.expression, Words.expressionOf, Words.literal,
            minus.property]
      | _ => exact False.elim derives
  | operation opening lhs operator rhs closing =>
      cases production with
      | expression | operation =>
          simp [Derivation.words, Words.read, Words.expression, Words.operation,
            Words.expressionOf, opening.property]
      | _ => exact False.elim derives

private theorem Words.read_eq_done {production : Production} (isTree : production ≠ .operator)
    {endSpan : Span} {levels : Nat} {words rest : List Token} {phrase : Phrase α}
    {completed : List (Located Operator)}
    (read : Words.read endSpan levels production words = .done phrase rest completed) :
    ∃ (derivation : Derivation) (tree : ParseTree α), derivation.Reads levels words tree rest ∧
      production.Derives derivation ∧ phrase = .tree tree := by
  cases production with
  | operator => exact absurd rfl isTree
  | expression =>
      obtain ⟨tree, treeRead, rfl⟩ := Outcome.map_eq_done read
      obtain ⟨derivation, reads⟩ := expression_eq_done treeRead
      exact ⟨derivation, tree, reads, trivial, rfl⟩
  | operation =>
      obtain ⟨tree, treeRead, rfl⟩ := Outcome.map_eq_done read
      obtain ⟨derivation, reads, kind⟩ := operation_eq_done treeRead
      cases derivation with
      | operation => exact ⟨_, tree, reads, trivial, rfl⟩
      | _ => cases kind
  | literal =>
      obtain ⟨tree, treeRead, rfl⟩ := Outcome.map_eq_done read
      obtain ⟨derivation, same, flat, found⟩ := literal_eq_done treeRead
      refine ⟨derivation, tree, ⟨same, Nat.le_trans flat (Nat.zero_le levels), found⟩, ?_, rfl⟩
      cases derivation with
      | operation => cases flat
      | _ => trivial
  | number =>
      obtain ⟨tree, treeRead, rfl⟩ := Outcome.map_eq_done read
      rcases numberTree_eq_done treeRead with ⟨word, same, _, found⟩ | ⟨minus, word, same, _, found⟩
      · exact ⟨_, tree, ⟨same, Nat.zero_le levels, found⟩, trivial, rfl⟩
      · exact ⟨_, tree, ⟨same, Nat.zero_le levels, found⟩, trivial, rfl⟩
  | name =>
      obtain ⟨tree, treeRead, rfl⟩ := Outcome.map_eq_done read
      obtain ⟨word, same, _, found⟩ := nameTree_eq_done treeRead
      exact ⟨_, tree, ⟨same, Nat.zero_le levels, found⟩, trivial, rfl⟩

omit [Numeral α] [Neg α] in
theorem Words.whole_result_eq_ok {β : Type} {endSpan : Span} {read : List Token → Outcome β}
    {words : List Token} {value : β} :
    (Words.whole endSpan read words).result = .ok value ↔
      words ≠ [] ∧ ∃ completed, read words = .done value [] completed := by
  cases words with
  | nil => simp [Words.whole, Outcome.result]
  | cons word tail =>
      cases found : read (word :: tail) with
      | failed error completed => simp [Words.whole, found, Outcome.result]
      | done found rest completed =>
          cases rest with
          | nil => simp [Words.whole, found, Words.finish, Outcome.result]
          | cons left rest =>
              by_cases closing : left.kind = .closeParen <;>
                simp [Words.whole, found, Words.finish, closing, Outcome.result]

/-- A source is read as what a production describes exactly if its words have such a
derivation, and then as its tree. -/
theorem Production.parse_eq_ok {production : Production} (isTree : production ≠ .operator)
    {source : String} {phrase : Phrase α} :
    production.parse source = .ok phrase ↔
      ∃ (derivation : Derivation) (tree : ParseTree α), derivation.Spells source ∧
        production.Derives derivation ∧ derivation.tree? = some tree ∧ phrase = .tree tree := by
  rw [Production.parse_eq, Words.whole_result_eq_ok]
  constructor
  · intro whole
    obtain ⟨-, completed, read⟩ := whole
    obtain ⟨derivation, tree, reads, derives, rfl⟩ := Words.read_eq_done isTree read
    have words := reads.words_append
    rw [List.append_nil] at words
    exact ⟨derivation, tree, ⟨words, reads.nesting_le⟩, derives, reads.tree?_eq, rfl⟩
  · intro derived
    obtain ⟨derivation, tree, spells, derives, found, rfl⟩ := derived
    rw [← spells.words_eq]
    obtain ⟨word, tail, words, -⟩ := derivation.words_eq_cons
    refine ⟨by simp [words], tree.operations, ?_⟩
    have read := Words.read_words (α := α) derives (sourceEnd source) nestingLimit []
    rw [Derivation.expression_words found spells.fits, List.append_nil] at read
    exact read

omit [Numeral α] [Neg α] in
private theorem Words.whole_map_result {β γ : Type} (f : β → γ) (endSpan : Span)
    (read : List Token → Outcome β) (words : List Token) :
    (Words.whole endSpan (fun words => (read words).map f) words).result =
      (Words.whole endSpan read words).result.map f := by
  cases words with
  | nil => rfl
  | cons word tail =>
      simp only [Words.whole]
      cases read (word :: tail) with
      | failed error completed => rfl
      | done value rest completed =>
          cases rest with
          | nil => rfl
          | cons left rest =>
              by_cases closing : left.kind = .closeParen <;>
                simp [Words.finish, Outcome.map, closing, Outcome.result, Except.map]

private theorem Production.parse_expression (source : String) :
    Production.expression.parse (α := α) source = (ParseTree.parse source).map .tree := by
  rw [Production.parse_eq, ParseTree.parse, ParseTree.parseCompleting_eq]
  exact Words.whole_map_result Phrase.tree _ _ _

theorem ParseTree.parse_eq_ok {source : String} {tree : ParseTree α} :
    ParseTree.parse source = .ok tree ↔
      ∃ derivation : Derivation, derivation.Spells source ∧ derivation.tree? = some tree := by
  have asPhrase : ParseTree.parse source = .ok tree ↔
      Production.expression.parse source = .ok (.tree tree) := by
    rw [Production.parse_expression]
    cases ParseTree.parse (α := α) source <;> simp [Except.map]
  rw [asPhrase, Production.parse_eq_ok (by decide)]
  constructor
  · intro derived
    obtain ⟨derivation, _, spells, -, found, same⟩ := derived
    cases same
    exact ⟨derivation, spells, found⟩
  · intro spelled
    obtain ⟨derivation, spells, found⟩ := spelled
    exact ⟨derivation, tree, spells, trivial, found, rfl⟩

/-- An expression has the shape of the parse tree that it was read from. -/
theorem Derivation.map_ofTree_tree? (derivation : Derivation) :
    derivation.tree?.map Expr.ofTree = derivation.expr? (α := α) := by
  induction derivation with
  | name word => rfl
  | numeral word | negative minus word => exact Option.map_map ..
  | operation opening lhs operator rhs closing lhsIH rhsIH =>
      simp only [tree?, expr?, ← lhsIH, ← rhsIH]
      cases lhs.tree? (α := α) with
      | none => rfl
      | some lhsTree =>
          cases rhs.tree? (α := α) with
          | none => rfl
          | some rhsTree => rfl

theorem Derivation.expr?_eq_some {derivation : Derivation} {expr : Expr α} :
    derivation.expr? = some expr ↔
      ∃ tree : ParseTree α, derivation.tree? = some tree ∧ Expr.ofTree tree = expr := by
  rw [← map_ofTree_tree?, Option.map_eq_some_iff]

theorem Expr.ofText_eq_ok {source : String} {expr : Expr α} :
    Expr.ofText source = .ok expr ↔
      ∃ derivation : Derivation, derivation.Spells source ∧ derivation.expr? = some expr := by
  unfold Expr.ofText
  constructor
  · intro read
    cases found : ParseTree.parse (α := α) source with
    | error error => rw [found] at read; cases read
    | ok tree =>
        rw [found] at read
        cases read
        obtain ⟨derivation, spells, treeFound⟩ := ParseTree.parse_eq_ok.mp found
        exact ⟨derivation, spells, Derivation.expr?_eq_some.mpr ⟨tree, treeFound, rfl⟩⟩
  · intro derived
    obtain ⟨derivation, spells, found⟩ := derived
    obtain ⟨tree, treeFound, rfl⟩ := Derivation.expr?_eq_some.mp found
    rw [ParseTree.parse_eq_ok.mpr ⟨derivation, spells, treeFound⟩]
    rfl

theorem Derivation.exists_operands_of_expr? {opening : TokenOf .openParen}
    {lhs rhs : Derivation} {operator : OperatorToken} {closing : TokenOf .closeParen}
    {expr : Expr α} (found : (operation opening lhs operator rhs closing).expr? = some expr) :
    ∃ lhsExpr rhsExpr, lhs.expr? = some lhsExpr ∧ rhs.expr? = some rhsExpr ∧
      expr = .binary operator.operator lhsExpr rhsExpr := by
  simp only [expr?, Option.bind_eq_bind, Option.bind_eq_some_iff] at found
  obtain ⟨lhsExpr, lhsFound, rhsExpr, rhsFound, same⟩ := found
  cases same
  exact ⟨lhsExpr, rhsExpr, lhsFound, rhsFound, rfl⟩

private theorem Derivation.depth_expr {derivation : Derivation} {expr : Expr α}
    (found : derivation.expr? = some expr) : expr.depth = derivation.nesting + 1 := by
  induction derivation generalizing expr with
  | name word =>
      cases found
      rfl
  | numeral word | negative minus word =>
      obtain ⟨value, -, rfl⟩ := Option.map_eq_some_iff.mp found
      rfl
  | operation opening lhs operator rhs closing lhsIH rhsIH =>
      obtain ⟨lhsExpr, rhsExpr, lhsFound, rhsFound, rfl⟩ := exists_operands_of_expr? found
      simp only [Expr.depth, nesting, lhsIH lhsFound, rhsIH rhsFound]
      omega

theorem Expr.depth_le_of_ofText {source : String} {expr : Expr α}
    (read : Expr.ofText source = .ok expr) : expr.depth ≤ nestingLimit + 1 := by
  obtain ⟨derivation, spells, found⟩ := Expr.ofText_eq_ok.mp read
  rw [Derivation.depth_expr found]
  exact Nat.succ_le_succ spells.nesting_le

/-! ## Every sentence has a tree -/

private theorem Derivation.exists_tree (reads : ReadsNumerals α) {derivation : Derivation}
    (numerals : ∀ word ∈ derivation.words, word.kind = .num → NumeralText word.lexeme.toList) :
    ∃ tree : ParseTree α, derivation.tree? = some tree := by
  induction derivation with
  | name word => exact ⟨_, rfl⟩
  | numeral word =>
      obtain ⟨value, read⟩ := reads _ (numerals _ List.mem_cons_self word.property)
      exact ⟨_, by rw [tree?, read]; rfl⟩
  | negative minus word =>
      obtain ⟨value, read⟩ :=
        reads _ (numerals _ (List.mem_cons_of_mem _ List.mem_cons_self) word.property)
      exact ⟨_, by rw [tree?, read]; rfl⟩
  | operation opening lhs operator rhs closing lhsIH rhsIH =>
      obtain ⟨lhsTree, lhsFound⟩ := lhsIH fun word member =>
        numerals word (by simp [words, member])
      obtain ⟨rhsTree, rhsFound⟩ := rhsIH fun word member =>
        numerals word (by simp [words, member])
      exact ⟨_, by rw [tree?, lhsFound, rhsFound]; rfl⟩

omit [Numeral α] [Neg α] in
theorem numeralText_of_mem_sourceWords {source : String} {word : Token}
    (member : word ∈ sourceWords source) (kind : word.kind = .num) :
    NumeralText word.lexeme.toList :=
  numeralText_of_mem_tokensFrom ((List.mem_filter.mp member).1) kind

/-- A source is read exactly if its words are a sentence of the grammar that nests at
most 128 parentheses, and as the expression of its only derivation. Each other
production accepts the sentences of its own rules, as the expression that they are. -/
theorem ofText_reads_exactly_sentences (reads : ReadsNumerals α) (source : String) :
    (∀ derivation : Derivation, derivation.words = sourceWords source →
      (∃ tree : ParseTree α, derivation.tree? = some tree) ∧
        ∀ other : Derivation, other.words = sourceWords source → other = derivation) ∧
    ((∃ expr : Expr α, Expr.ofText source = .ok expr) ↔
      ∃ derivation : Derivation, derivation.Spells source) ∧
    (∀ expr : Expr α, Expr.ofText source = .ok expr ↔
      ∃ derivation : Derivation, derivation.Spells source ∧ derivation.expr? = some expr) ∧
    ∀ production : Production, production ≠ .operator → ∀ phrase : Phrase α,
      (production.parse source = .ok phrase ↔
        ∃ (derivation : Derivation) (tree : ParseTree α), derivation.Spells source ∧
          production.Derives derivation ∧ derivation.tree? = some tree ∧
            phrase = .tree tree) ∧
      (production.parse source = .ok phrase →
        Production.expression.parse source = .ok phrase) := by
  have hasTree (derivation : Derivation) (same : derivation.words = sourceWords source) :
      ∃ tree : ParseTree α, derivation.tree? = some tree :=
    derivation.exists_tree reads fun word member =>
      numeralText_of_mem_sourceWords (same ▸ member)
  refine ⟨fun derivation same => ⟨hasTree derivation same, fun other otherSame => ?_⟩, ?_,
    fun expr => Expr.ofText_eq_ok, fun production isTree phrase =>
      ⟨Production.parse_eq_ok isTree, fun parsed => ?_⟩⟩
  · have words : other.words ++ [] = derivation.words ++ [] := by rw [same, otherSame]
    exact (Derivation.eq_of_words_append words).1
  · constructor
    · intro accepted
      obtain ⟨expr, read⟩ := accepted
      obtain ⟨derivation, spells, -⟩ := Expr.ofText_eq_ok.mp read
      exact ⟨derivation, spells⟩
    · intro spelled
      obtain ⟨derivation, spells⟩ := spelled
      obtain ⟨tree, found⟩ := hasTree derivation spells.words_eq
      exact ⟨_, Expr.ofText_eq_ok.mpr
        ⟨derivation, spells, Derivation.expr?_eq_some.mpr ⟨tree, found, rfl⟩⟩⟩
  · obtain ⟨derivation, tree, spells, -, found, same⟩ := (Production.parse_eq_ok isTree).mp parsed
    exact (Production.parse_eq_ok (by decide)).mpr
      ⟨derivation, tree, spells, trivial, found, same⟩

end Productions

/-- The derivation of `(x - -3.5)`. -/
def differenceDerivation : Derivation :=
  .operation ⟨⟨.openParen, "(", ⟨0, 1⟩⟩, rfl⟩ (.name ⟨⟨.name, "x", ⟨1, 2⟩⟩, rfl⟩)
    ⟨⟨.sub, "-", ⟨3, 4⟩⟩, .sub, .sub⟩
    (.negative ⟨⟨.sub, "-", ⟨5, 6⟩⟩, rfl⟩ ⟨⟨.num, "3.5", ⟨6, 9⟩⟩, rfl⟩)
    ⟨⟨.closeParen, ")", ⟨9, 10⟩⟩, rfl⟩

theorem ofText_reads_difference :
    ReadsNumerals FixedPoint ∧
      Expr.ofText "(x - -3.5)" =
        .ok (.binary .sub (.var "x") (.num (⟨true, 35, 1⟩ : FixedPoint))) :=
  ⟨FixedPoint.readsNumerals,
    ((ofText_reads_exactly_sentences FixedPoint.readsNumerals "(x - -3.5)").2.2.1 _).mpr
      ⟨differenceDerivation, ⟨by decide +kernel, by decide⟩, rfl⟩⟩

end Calculator
