import Calculator.Proofs.Parser.Relocation
import Calculator.Proofs.Parser.WordRegions

/-!
# Regions of parse trees

The region of each expression in a parse tree holds a text that is read, on its own, as that
expression: no more and no less of the source belongs to it. In an operation the regions of
the parentheses, the operands and the operator follow one another.
-/

set_option autoImplicit false

namespace Calculator

/-- The expressions in a tree. -/
inductive ParseTree.HasNode {α : Type} : ParseTree α → ParseTree α → Prop where
  | root {tree : ParseTree α} : HasNode tree tree
  | lhs {lhs rhs node : ParseTree α} {operator : Located Operator} {span : Span} :
      HasNode lhs node → HasNode (.operation lhs operator rhs span) node
  | rhs {lhs rhs node : ParseTree α} {operator : Located Operator} {span : Span} :
      HasNode rhs node → HasNode (.operation lhs operator rhs span) node

structure OperationRegions (source : String) (span lhs operator rhs : Span) : Prop where
  opening : Span.Selects ⟨span.start, span.start + 1⟩ source "("
  start_lt_lhs : span.start < lhs.start
  lhs_nonempty : lhs.start < lhs.stop
  lhs_le_operator : lhs.stop ≤ operator.start
  operator_nonempty : operator.start < operator.stop
  operator_le_rhs : operator.stop ≤ rhs.start
  rhs_nonempty : rhs.start < rhs.stop
  rhs_lt_stop : rhs.stop < span.stop
  closing : Span.Selects ⟨span.stop - 1, span.stop⟩ source ")"

/-! ## Parts of derivations -/

namespace Derivation

variable {α : Type} [Numeral α] [Neg α] {derivation : Derivation}

private theorem tree?_eq_operation {lhs rhs : ParseTree α} {operator : Located Operator}
    {span : Span} (found : derivation.tree? = some (.operation lhs operator rhs span)) :
    ∃ opening lhsPart operatorToken rhsPart closing,
      derivation = .operation opening lhsPart operatorToken rhsPart closing ∧
      lhsPart.tree? = some lhs ∧ rhsPart.tree? = some rhs ∧
      operator = ⟨operatorToken.operator, operatorToken.token.span⟩ ∧
      span = opening.val.span.through closing.val.span := by
  cases derivation with
  | name word => cases found
  | numeral word =>
      obtain ⟨value, -, same⟩ := Option.map_eq_some_iff.mp found
      cases same
  | negative minus word =>
      obtain ⟨value, -, same⟩ := Option.map_eq_some_iff.mp found
      cases same
  | operation opening lhsPart operatorToken rhsPart closing =>
      obtain ⟨lhsTree, rhsTree, lhsFound, rhsFound, same⟩ := exists_operands_of_tree? found
      cases same
      exact ⟨opening, lhsPart, operatorToken, rhsPart, closing, rfl, lhsFound, rhsFound, rfl, rfl⟩

theorem span_of_tree? {tree : ParseTree α} (found : derivation.tree? = some tree) :
    ∃ first last, derivation.words.head? = some first ∧ derivation.words.getLast? = some last ∧
      tree.span = first.span.through last.span := by
  cases derivation with
  | name word =>
      cases found
      exact ⟨word.val, word.val, rfl, rfl, rfl⟩
  | numeral word =>
      obtain ⟨value, -, rfl⟩ := Option.map_eq_some_iff.mp found
      exact ⟨word.val, word.val, rfl, rfl, rfl⟩
  | negative minus word =>
      obtain ⟨value, -, rfl⟩ := Option.map_eq_some_iff.mp found
      exact ⟨minus.val, word.val, rfl, rfl, rfl⟩
  | operation opening lhs operator rhs closing =>
      obtain ⟨lhsTree, rhsTree, -, -, rfl⟩ := exists_operands_of_tree? found
      refine ⟨opening.val, closing.val, rfl, ?_, rfl⟩
      rw [words, List.getLast?_concat]

/-- An expression in a tree is the tree of a part of its derivation, with a run of the words. -/
theorem exists_part {tree node : ParseTree α} (within : tree.HasNode node)
    (found : derivation.tree? = some tree) :
    ∃ part : Derivation, part.tree? = some node ∧ part.nesting ≤ derivation.nesting ∧
      ∃ before after, derivation.words = before ++ (part.words ++ after) := by
  induction within generalizing derivation with
  | root => exact ⟨derivation, found, Nat.le_refl _, [], [], by simp⟩
  | lhs _ ih =>
      obtain ⟨opening, lhs, operator, rhs, closing, rfl, lhsFound, -⟩ := tree?_eq_operation found
      obtain ⟨part, partFound, fits, before, after, same⟩ := ih lhsFound
      refine ⟨part, partFound, ?_, opening.val :: before,
        after ++ operator.token :: rhs.words ++ [closing.val], ?_⟩
      · exact Nat.le_succ_of_le (Nat.le_trans fits (Nat.le_max_left _ _))
      · simp [words, same]
  | rhs _ ih =>
      obtain ⟨opening, lhs, operator, rhs, closing, rfl, -, rhsFound, -⟩ := tree?_eq_operation found
      obtain ⟨part, partFound, fits, before, after, same⟩ := ih rhsFound
      refine ⟨part, partFound, ?_, opening.val :: lhs.words ++ operator.token :: before,
        after ++ [closing.val], ?_⟩
      · exact Nat.le_succ_of_le (Nat.le_trans fits (Nat.le_max_right _ _))
      · simp [words, same]

/-- A source whose words are those of a derivation, elsewhere, has the tree of that derivation
there. -/
theorem parse_of_moved {tree : ParseTree α} (found : derivation.tree? = some tree)
    (fits : derivation.nesting ≤ nestingLimit) {source : String} (move : Relocation)
    (moved : derivation.words = (sourceWords source).map move.token) :
    ∃ own : ParseTree α, ParseTree.parse source = .ok own ∧ move.tree own = tree := by
  have read := expression_words found fits (move.span (sourceEnd source)) []
  rw [List.append_nil] at read
  have nonempty : derivation.words ≠ [] := by
    obtain ⟨word, rest, same, -⟩ := derivation.words_eq_cons
    rw [same]
    exact List.cons_ne_nil word rest
  have whole : (Words.whole (move.span (sourceEnd source))
      (Words.expression (α := α) (move.span (sourceEnd source)) nestingLimit)
      derivation.words).result = .ok tree :=
    Words.whole_result_eq_ok.mpr ⟨nonempty, tree.operations, read⟩
  rw [moved, move.wholeExpression, move.outcome_result] at whole
  rw [ParseTree.parse, ParseTree.parseCompleting_eq]
  cases outcome : (Words.whole (sourceEnd source)
      (Words.expression (α := α) (sourceEnd source) nestingLimit) (sourceWords source)).result with
  | error error => rw [outcome] at whole; cases whole
  | ok own =>
      rw [outcome] at whole
      cases whole
      exact ⟨own, rfl, rfl⟩

end Derivation

/-! ## Parentheses in the source -/

theorem Token.IsCutFrom.ruleText {source : String} {token : Token} (cut : token.IsCutFrom source)
    (named : token.kind ≠ .symbol) : RuleText token.kind token.lexeme.toList := by
  obtain ⟨_, _, -, -, munched⟩ := cut.longest
  generalize token.kind = kind at munched named ⊢
  generalize token.lexeme.toList = lexeme at munched ⊢
  cases munched with
  | rule accepted _ _ => exact accepted
  | symbol => exact absurd rfl named

private theorem selects_of_mem_sourceWords {source text : String} {word : Token}
    (member : word ∈ sourceWords source) (named : word.kind ≠ .symbol)
    (spelled : ∀ lexeme, RuleText word.kind lexeme → lexeme = text.toList) :
    word.span.Selects source text := by
  have cut := isCutFrom_of_mem_tokenize (mem_tokenize_of_mem_sourceWords member)
  have same := String.toList_inj.mp (spelled _ (cut.ruleText named))
  rw [← same]
  exact cut.selects

private theorem selects_openParen {source : String} {opening : TokenOf .openParen}
    (member : opening.val ∈ sourceWords source) :
    Span.Selects ⟨opening.val.span.start, opening.val.span.start + 1⟩ source "(" := by
  have selects : opening.val.span.Selects source "(" := by
    refine selects_of_mem_sourceWords member (by simp [opening.property]) fun lexeme rule => ?_
    rw [opening.property] at rule
    cases rule
    rfl
  have stop := selects.stop_eq
  rwa [show opening.val.span = ⟨_, opening.val.span.stop⟩ from rfl, stop] at selects

private theorem selects_closeParen {source : String} {closing : TokenOf .closeParen}
    (member : closing.val ∈ sourceWords source) :
    Span.Selects ⟨closing.val.span.stop - 1, closing.val.span.stop⟩ source ")" := by
  have selects : closing.val.span.Selects source ")" := by
    refine selects_of_mem_sourceWords member (by simp [closing.property]) fun lexeme rule => ?_
    rw [closing.property] at rule
    cases rule
    rfl
  have stop : closing.val.span.stop = closing.val.span.start + 1 := selects.stop_eq
  have start : closing.val.span.start = closing.val.span.stop - 1 := by omega
  rwa [show closing.val.span = ⟨closing.val.span.start, _⟩ from rfl, start] at selects

section Sources

variable {α : Type} [Numeral α] [Neg α] {source : String}

private theorem Derivation.operationRegions {opening : TokenOf .openParen} {lhs rhs : Derivation}
    {operator : OperatorToken} {closing : TokenOf .closeParen} {lhsTree rhsTree : ParseTree α}
    {before after : List Token}
    (words : sourceWords source =
      before ++ ((operation opening lhs operator rhs closing).words ++ after))
    (lhsFound : lhs.tree? = some lhsTree) (rhsFound : rhs.tree? = some rhsTree) :
    OperationRegions source (opening.val.span.through closing.val.span) lhsTree.span
      operator.token.span rhsTree.span := by
  obtain ⟨lhsFirst, lhsLast, lhsBegins, lhsEnds, lhsSpan⟩ := span_of_tree? lhsFound
  obtain ⟨rhsFirst, rhsLast, rhsBegins, rhsEnds, rhsSpan⟩ := span_of_tree? rhsFound
  have among (word : Token) (member : word ∈ (operation opening lhs operator rhs closing).words) :
      word ∈ sourceWords source := by
    rw [words]
    exact List.mem_append_right before (List.mem_append_left after member)
  have ordered := inOrder_sourceWords source
  rw [words, words_operation_append] at ordered
  -- The words of the operation one part after the other.
  have fromOpening := ordered.sublist (List.sublist_append_right before _)
  have fromLhs := fromOpening.of_cons
  have fromOperator := fromLhs.sublist (List.sublist_append_right lhs.words _)
  have fromRhs := fromOperator.of_cons
  have fromClosing := fromRhs.sublist (List.sublist_append_right rhs.words _)
  have lhsOrdered := fromLhs.sublist (List.sublist_append_left lhs.words _)
  have rhsOrdered := fromRhs.sublist (List.sublist_append_left rhs.words _)
  have lhsMember := List.mem_of_getLast? lhsEnds
  have rhsMember := List.mem_of_getLast? rhsEnds
  have openingNonempty := fromOpening.start_lt opening.val List.mem_cons_self
  have closingNonempty := fromClosing.start_lt closing.val List.mem_cons_self
  have lhsAfter := lhsOrdered.le_start lhsFirst (List.mem_of_head? lhsBegins)
  have rhsBefore := fromRhs.stop_le_start_of_append rhsMember List.mem_cons_self
  rw [lhsSpan, rhsSpan]
  exact {
    opening := selects_openParen (among _ (by simp [Derivation.words]))
    start_lt_lhs := Nat.lt_of_lt_of_le openingNonempty lhsAfter
    lhs_nonempty := lhsOrdered.start_lt_stop lhsBegins lhsEnds
    lhs_le_operator := fromLhs.stop_le_start_of_append lhsMember List.mem_cons_self
    operator_nonempty := fromOperator.start_lt _ List.mem_cons_self
    operator_le_rhs := rhsOrdered.le_start rhsFirst (List.mem_of_head? rhsBegins)
    rhs_nonempty := rhsOrdered.start_lt_stop rhsBegins rhsEnds
    rhs_lt_stop := Nat.lt_of_le_of_lt rhsBefore closingNonempty
    closing := selects_closeParen (among _ (by simp [Derivation.words])) }

/-- Cutting the region of an expression out of a source and reading that alone gives the same
expression, nearer to the start by what was cut off. -/
theorem parse_regions_exact {tree node : ParseTree α} (parsed : ParseTree.parse source = .ok tree)
    (within : tree.HasNode node) :
    (∃ (slice : String) (own : ParseTree α), node.span.Selects source slice ∧
      ParseTree.parse slice = .ok own ∧ node = (Relocation.shift node.span.start).tree own) ∧
    ∀ lhs operator rhs span, node = .operation lhs operator rhs span →
      OperationRegions source span lhs.span operator.span rhs.span := by
  obtain ⟨derivation, spells, found⟩ := ParseTree.parse_eq_ok.mp parsed
  obtain ⟨part, partFound, fits, before, after, same⟩ := Derivation.exists_part within found
  have words := spells.words_eq.symm.trans same
  constructor
  · obtain ⟨first, last, begins, ends, span⟩ := Derivation.span_of_tree? partFound
    obtain ⟨slice, selects, moved⟩ := exists_slice words begins ends
    rw [span]
    obtain ⟨own, ownParsed, ownTree⟩ := Derivation.parse_of_moved partFound
      (Nat.le_trans fits spells.fits) (Relocation.shift first.span.start) moved
    exact ⟨slice, own, selects, ownParsed, ownTree.symm⟩
  · rintro lhs operator rhs span rfl
    obtain ⟨opening, lhsPart, operatorToken, rhsPart, closing, rfl, lhsFound, rhsFound, rfl, rfl⟩ :=
      Derivation.tree?_eq_operation partFound
    exact Derivation.operationRegions words lhsFound rhsFound

end Sources

/-- The tree of `(- 3 * x)` in `((- 3 * x) / y)`. -/
def productTree : ParseTree FixedPoint :=
  .operation (.number ⟨true, 3, 0⟩ ⟨2, 5⟩) ⟨.mul, ⟨6, 7⟩⟩ (.name "x" ⟨8, 9⟩) ⟨1, 10⟩

def quotientTree : ParseTree FixedPoint :=
  .operation productTree ⟨.div, ⟨11, 12⟩⟩ (.name "y" ⟨13, 14⟩) ⟨0, 15⟩

theorem parse_regions_exact_product :
    ParseTree.parse "((- 3 * x) / y)" = .ok quotientTree ∧ quotientTree.HasNode productTree ∧
      (∃ (slice : String) (own : ParseTree FixedPoint),
        Span.Selects ⟨1, 10⟩ "((- 3 * x) / y)" slice ∧ ParseTree.parse slice = .ok own ∧
        productTree = (Relocation.shift 1).tree own) ∧
      OperationRegions "((- 3 * x) / y)" ⟨1, 10⟩ ⟨2, 5⟩ ⟨6, 7⟩ ⟨8, 9⟩ := by
  have words : sourceWords "((- 3 * x) / y)" =
      [⟨.openParen, "(", ⟨0, 1⟩⟩, ⟨.openParen, "(", ⟨1, 2⟩⟩, ⟨.sub, "-", ⟨2, 3⟩⟩,
        ⟨.num, "3", ⟨4, 5⟩⟩, ⟨.mul, "*", ⟨6, 7⟩⟩, ⟨.name, "x", ⟨8, 9⟩⟩,
        ⟨.closeParen, ")", ⟨9, 10⟩⟩, ⟨.div, "/", ⟨11, 12⟩⟩, ⟨.name, "y", ⟨13, 14⟩⟩,
        ⟨.closeParen, ")", ⟨14, 15⟩⟩] := by decide +kernel
  have parsed : ParseTree.parse "((- 3 * x) / y)" = .ok quotientTree := by
    rw [ParseTree.parse, ParseTree.parseCompleting_eq, words]
    rfl
  have within : quotientTree.HasNode productTree := .lhs .root
  obtain ⟨alone, operation⟩ := parse_regions_exact parsed within
  exact ⟨parsed, within, alone, operation _ _ _ _ rfl⟩

end Calculator
