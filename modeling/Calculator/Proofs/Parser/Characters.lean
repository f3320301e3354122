import Calculator.Proofs.Expr.PostOrder
import Calculator.Proofs.Parser.Respacing
import Calculator.Proofs.Parser.RoundTrip
import Calculator.Proofs.Parser.TreeRegions
import Calculator.Proofs.Text.Blank

/-!
# Characters of expressions

A source that is read as an expression has no symbols among its tokens, so it is made of the
characters of names, numbers, operators, parentheses and separators. Separators are its only
blanks, and those at its ends may be removed. The variables in it are names.
-/

set_option autoImplicit false

namespace Calculator

/-- The characters of tokens other than symbols. -/
def isTokenCharacter (character : Char) : Bool :=
  isNameRest character || ('.' :: punctuation).any (· == character)

/-! ## Characters of tokens -/

private theorem isTokenCharacter_of_isNameRest {character : Char}
    (isRest : isNameRest character = true) : isTokenCharacter character = true := by
  rw [isTokenCharacter, isRest, Bool.true_or]

private theorem isTokenCharacter_of_isDigit {character : Char} (digit : character.isDigit = true) :
    isTokenCharacter character = true := by
  apply isTokenCharacter_of_isNameRest
  rw [isNameRest, Char.isAlphanum, digit, Bool.or_true, Bool.true_or]

private theorem NumeralText.isTokenCharacter {text : List Char} (numeral : NumeralText text)
    {character : Char} (member : character ∈ text) : isTokenCharacter character = true := by
  cases numeral with
  | whole _ digits => exact isTokenCharacter_of_isDigit (digits character member)
  | pointed _ digits fractionDigits =>
      rcases List.mem_append.mp member with inDigits | inFraction
      · exact isTokenCharacter_of_isDigit (digits character inDigits)
      · rcases List.mem_cons.mp inFraction with rfl | inDigits
        · decide
        · exact isTokenCharacter_of_isDigit (fractionDigits character inDigits)
  | fraction _ digits =>
      rcases List.mem_cons.mp member with rfl | inDigits
      · decide
      · exact isTokenCharacter_of_isDigit (digits character inDigits)

private theorem RuleText.isTokenCharacter {kind : TokenKind} {text : List Char}
    (rule : RuleText kind text) {character : Char} (member : character ∈ text) :
    isTokenCharacter character = true := by
  cases rule with
  | whitespace _ among =>
      have separator := among character member
      simp only [List.mem_cons, List.not_mem_nil, or_false] at separator
      rcases separator with rfl | rfl | rfl | rfl <;> decide
  | add | sub | mul | div | openParen | closeParen =>
      cases List.mem_singleton.mp member
      decide
  | name start continues =>
      apply isTokenCharacter_of_isNameRest
      rcases List.mem_cons.mp member with rfl | inRest
      · exact isNameRest_of_isNameStart (isNameStart_iff.mpr start)
      · exact isNameRest_iff.mpr (continues character inRest)
  | num numeral => exact numeral.isTokenCharacter member

private theorem isSeparator_of_isBlank {character : Char}
    (token : isTokenCharacter character = true)
    (blank : isBlank character = true) : isSeparator character = true := by
  rcases Bool.or_eq_true_iff.mp token with isRest | mark
  · rw [isBlank_of_isNameRest isRest] at blank
    cases blank
  · obtain ⟨other, member, same⟩ := List.any_eq_true.mp mark
    cases beq_iff_eq.mp same
    simp only [punctuation, List.mem_cons, List.not_mem_nil, or_false] at member
    rcases member with rfl | rfl | rfl | rfl | rfl | rfl | rfl | rfl | rfl | rfl | rfl
    all_goals first | rfl | cases blank

/-! ## Characters of sources -/

namespace Derivation

variable {derivation : Derivation} {source : String}

private theorem kind_ne_symbol {word : Token} (member : word ∈ derivation.words) :
    word.kind ≠ .symbol := by
  induction derivation with
  | name own | numeral own =>
      cases List.mem_singleton.mp member
      simp [own.property]
  | negative minus own =>
      rcases List.mem_cons.mp member with rfl | inRest
      · simp [minus.property]
      · cases List.mem_singleton.mp inRest
        simp [own.property]
  | operation opening lhs operator rhs closing lhsIH rhsIH =>
      simp only [words, List.mem_append, List.mem_cons, List.not_mem_nil, or_false] at member
      rcases member with ((rfl | inLhs) | rfl | inRhs) | rfl
      · simp [opening.property]
      · exact lhsIH inLhs
      · intro symbol
        have writes := operator.writes
        rw [symbol] at writes
        cases writes
      · exact rhsIH inRhs
      · simp [closing.property]

private theorem Spells.ruleText (spells : derivation.Spells source) {token : Token}
    (member : token ∈ tokenize source) : RuleText token.kind token.lexeme.toList := by
  apply (isCutFrom_of_mem_tokenize member).ruleText
  cases separates : token.isWhitespace with
  | true =>
      rw [beq_iff_eq.mp separates]
      decide
  | false =>
      have word : token ∈ sourceWords source := List.mem_filter.mpr ⟨member, by simp [separates]⟩
      rw [← spells.words_eq] at word
      exact kind_ne_symbol word

private theorem Spells.isTokenCharacter (spells : derivation.Spells source) {character : Char}
    (member : character ∈ source.toList) : isTokenCharacter character = true := by
  rw [← (cutInto_tokenize source).flatMap_lexeme] at member
  obtain ⟨token, among, inLexeme⟩ := List.mem_flatMap.mp member
  exact (spells.ruleText among).isTokenCharacter inLexeme

end Derivation

/-! ## Separators at the ends -/

private theorem Respaced.surrounded {before after : List Char}
    (beforeSeparates : before.all isSeparator = true)
    (afterSeparates : after.all isSeparator = true) (tokens : List Token) :
    Respaced tokens
      (before ++ (tokens.flatMap (fun token => token.lexeme.toList) ++ after)) := by
  induction tokens generalizing before with
  | nil =>
      apply Respaced.nil
      rw [List.flatMap_nil, List.nil_append, List.all_append, beforeSeparates, afterSeparates,
        Bool.and_self]
  | cons token tokens ih =>
      have rest := ih (show ([] : List Char).all isSeparator = true from rfl)
      rw [List.flatMap_cons, List.append_assoc]
      exact .cons beforeSeparates rest

section Readings

variable {α : Type} [Numeral α] [Neg α] {source other : String} {expr : Expr α}

private theorem Expr.ofText_of_content
    (same : (sourceWords other).map Token.content = (sourceWords source).map Token.content) :
    Expr.ofText other = .ok expr ↔ Expr.ofText source = .ok expr := by
  rw [Expr.ofText_eq_readPlaced, Expr.ofText_eq_readPlaced, same]
  cases readPlaced (α := α) ((sourceWords source).map Token.content) with
  | ok tree => exact Iff.rfl
  | error error => simp [Except.map, Except.mapError]

theorem Expr.isTokenCharacter_of_ofText (read : Expr.ofText source = .ok expr) {character : Char}
    (member : character ∈ source.toList) : isTokenCharacter character = true := by
  obtain ⟨derivation, spells, -⟩ := Expr.ofText_eq_ok.mp read
  exact spells.isTokenCharacter member

/-- The blanks at the ends of an expression are separators, and play no part in it. -/
theorem Expr.ofText_trim (read : Expr.ofText source = .ok expr) :
    Expr.ofText (String.ofList (trim source.toList)) = .ok expr := by
  obtain ⟨before, after, whole, blankBefore, blankAfter⟩ := exists_blanks_around source.toList
  have separates {blanks : List Char} (blank : blanks.all isBlank = true)
      (piece : ∀ character ∈ blanks, character ∈ source.toList) :
      blanks.all isSeparator = true := by
    rw [List.all_eq_true] at blank ⊢
    intro character member
    have token := Expr.isTokenCharacter_of_ofText read (piece character member)
    exact isSeparator_of_isBlank token (blank character member)
  have beforeSeparates := separates blankBefore (by rw [whole]; simp +contextual)
  have afterSeparates := separates blankAfter (by rw [whole]; simp +contextual)
  have respaced : Respaced (tokenize (String.ofList (trim source.toList))) source.toList := by
    have surrounded := Respaced.surrounded beforeSeparates afterSeparates
      (tokenize (String.ofList (trim source.toList)))
    rwa [(cutInto_tokenize _).flatMap_lexeme, String.toList_ofList, ← whole] at surrounded
  exact (Expr.ofText_of_content respaced.content_sourceWords).mp read

/-! ## Names -/

private theorem isName_of_ruleText {text : List Char} (rule : RuleText .name text) :
    isName text = true := by
  cases rule with
  | name start continues =>
      rw [isName, isNameStart_iff.mpr start, Bool.true_and, List.all_eq_true]
      exact fun character member => isNameRest_iff.mpr (continues character member)

private theorem Derivation.isName_of_mem_variableNames {derivation : Derivation} {expr : Expr α}
    (found : derivation.expr? = some expr)
    (names : ∀ word ∈ derivation.words, word.kind = .name → isName word.lexeme.toList = true)
    {name : String} (member : name ∈ expr.variableNames) : isName name.toList = true := by
  induction derivation generalizing expr with
  | name word =>
      cases found
      cases Expr.mem_variableNames_var.mp member
      exact names _ List.mem_cons_self word.property
  | numeral word | negative minus word =>
      obtain ⟨value, -, rfl⟩ := Option.map_eq_some_iff.mp found
      exact absurd member Expr.not_mem_variableNames_num
  | operation opening lhs operator rhs closing lhsIH rhsIH =>
      obtain ⟨lhsExpr, rhsExpr, lhsFound, rhsFound, rfl⟩ := exists_operands_of_expr? found
      rcases Expr.mem_variableNames_binary.mp member with inLhs | inRhs
      · exact lhsIH lhsFound (fun word among => names word (by simp [words, among])) inLhs
      · exact rhsIH rhsFound (fun word among => names word (by simp [words, among])) inRhs

theorem Expr.isName_of_mem_variableNames (read : Expr.ofText source = .ok expr) {name : String}
    (member : name ∈ expr.variableNames) : isName name.toList = true := by
  obtain ⟨derivation, spells, found⟩ := Expr.ofText_eq_ok.mp read
  refine derivation.isName_of_mem_variableNames found ?_ member
  intro word among kind
  rw [spells.words_eq] at among
  have rule := spells.ruleText (mem_tokenize_of_mem_sourceWords among)
  rw [kind] at rule
  exact isName_of_ruleText rule

/-- The names are the sources that are read as the variable of that name. -/
theorem Expr.ofText_eq_var_iff {name : String} :
    Expr.ofText name = .ok (.var name : Expr α) ↔ isName name.toList = true := by
  constructor
  · intro read
    exact Expr.isName_of_mem_variableNames read (Expr.mem_variableNames_var.mpr rfl)
  · exact Expr.ofText_name

end Readings

end Calculator
