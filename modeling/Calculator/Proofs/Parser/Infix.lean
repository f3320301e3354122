import Calculator.Expr.Basic
import Calculator.Proofs.Parser.Concatenation
import Calculator.Proofs.Parser.Derivation

/-!
# The grammar of infix notation

    expression := term ((`+` | `-`) term)*
    term       := factor ((`*` | `/`) factor)*
    factor     := `-`? numeral | name | `(` expression `)`

Operators of one precedence associate to the left. What stands in front of a chain of
operators is decided word by word, so words are read in one way at most.
-/

set_option autoImplicit false

namespace Calculator

variable {α : Type}

/-- The parts of infix notation. -/
inductive InfixPart (α : Type) where
  | factor
  /-- Operands between operators of a precedence. -/
  | chain (precedence : Precedence)
  /-- What a chain holds after its first operands, which make the expression `lhs`. -/
  | remainder (precedence : Precedence) (lhs : Expr α)

def InfixPart.operand : Precedence → InfixPart α
  | .term => .chain .factor
  | .factor => .factor

/-- `+` and `-` separate terms, `*` and `/` separate factors. -/
inductive Precedence.Separates : Precedence → Operator → Prop where
  | add : Separates .term .add
  | sub : Separates .term .sub
  | mul : Separates .factor .mul
  | div : Separates .factor .div

/-- The levels by which texts are printed are those of the grammar. -/
theorem Precedence.separates_iff {precedence : Precedence} {operator : Operator} :
    precedence.Separates operator ↔ operator.precedence = precedence := by
  constructor
  · intro separates
    cases separates <;> rfl
  · rintro rfl
    cases operator <;> constructor

/-- The words that each part of infix notation has, and the expression that they are read
as. -/
inductive Infix [Numeral α] [Neg α] : InfixPart α → List Token → Expr α → Prop where
  | numeral (word : TokenOf .num) {value : α} :
      Numeral.read? word.val.lexeme = some value → Infix .factor [word.val] (.num value)
  | negative (minus : TokenOf .sub) (word : TokenOf .num) {value : α} :
      Numeral.read? word.val.lexeme = some value →
      Infix .factor [minus.val, word.val] (.num (-value))
  | name (word : TokenOf .name) : Infix .factor [word.val] (.var word.val.lexeme)
  | enclosed (opening : TokenOf .openParen) (closing : TokenOf .closeParen)
      {words : List Token} {expr : Expr α} :
      Infix (.chain .term) words expr →
      Infix .factor (opening.val :: (words ++ [closing.val])) expr
  | chain {precedence : Precedence} {words rest : List Token} {lhs expr : Expr α} :
      Infix (.operand precedence) words lhs → Infix (.remainder precedence lhs) rest expr →
      Infix (.chain precedence) (words ++ rest) expr
  | stop {precedence : Precedence} {lhs : Expr α} : Infix (.remainder precedence lhs) [] lhs
  | more {precedence : Precedence} (operator : OperatorToken) {words rest : List Token}
      {lhs rhs expr : Expr α} :
      precedence.Separates operator.operator → Infix (.operand precedence) words rhs →
      Infix (.remainder precedence (.binary operator.operator lhs rhs)) rest expr →
      Infix (.remainder precedence lhs) (operator.token :: (words ++ rest)) expr

/-! ## Words are read in one way -/

/-- The words after a part do not go on with it: no operator follows a chain, or one that
separates terms follows a chain of factors. -/
def InfixPart.Ends : InfixPart α → List Token → Prop
  | .factor, _ => True
  | .chain precedence, rest | .remainder precedence _, rest =>
      ∀ word ∈ rest.head?, ∀ operator, word.kind.Writes operator →
        precedence = .factor ∧ Precedence.term.Separates operator

private theorem TokenOf.val_ne {kind other : TokenKind} (different : kind ≠ other)
    (first : TokenOf kind) (second : TokenOf other) : first.val ≠ second.val := by
  intro same
  exact different (first.property.symm.trans (same ▸ second.property))

private theorem InfixPart.ends_closing (precedence : Precedence) (closing : TokenOf .closeParen)
    (rest : List Token) : (chain precedence : InfixPart α).Ends (closing.val :: rest) := by
  intro word member operator writes
  cases member
  rw [closing.property] at writes
  cases writes

private theorem InfixPart.Ends.not_separates {precedence : Precedence} {operator : OperatorToken}
    {rest : List Token}
    (ends : (InfixPart.chain precedence : InfixPart α).Ends (operator.token :: rest)) :
    ¬precedence.Separates operator.operator := by
  intro separates
  obtain ⟨rfl, separatesTerms⟩ := ends operator.token rfl operator.operator operator.writes
  cases (Precedence.separates_iff.mp separates).symm.trans
    (Precedence.separates_iff.mp separatesTerms)

variable [Numeral α] [Neg α]

private theorem Infix.operand_ends {precedence : Precedence} {lhs expr : Expr α}
    {words rest : List Token} (remainder : Infix (.remainder precedence lhs) words expr)
    (ends : (InfixPart.chain precedence : InfixPart α).Ends rest) :
    (InfixPart.operand precedence : InfixPart α).Ends (words ++ rest) := by
  cases precedence with
  | factor => trivial
  | term =>
      intro word member operator writes
      cases remainder with
      | stop =>
          obtain ⟨impossible, -⟩ := ends word member operator writes
          cases impossible
      | more next separates _ _ =>
          cases member
          have read := next.operator?_eq
          rw [TokenKind.writes_iff.mp writes] at read
          cases read
          exact ⟨rfl, separates⟩

/-- No part begins another one of its kind that is followed by what ends it. -/
theorem Infix.unique_append {part : InfixPart α} {words otherWords : List Token}
    {expr other : Expr α} (reading : Infix part words expr)
    (otherReading : Infix part otherWords other) {rest otherRest : List Token}
    (same : words ++ rest = otherWords ++ otherRest)
    (ends : part.Ends rest) (otherEnds : part.Ends otherRest) :
    expr = other ∧ rest = otherRest := by
  -- The first word tells the rule of a factor, and whether a remainder goes on.
  induction reading generalizing otherWords other rest otherRest with
  | numeral word read =>
      cases otherReading with
      | numeral otherWord otherRead =>
          obtain ⟨sameWord, sameRest⟩ := List.cons.inj same
          rw [sameWord] at read
          cases Option.some.inj (read.symm.trans otherRead)
          exact ⟨rfl, sameRest⟩
      | _ => exact absurd (List.cons.inj same).1 (TokenOf.val_ne (by decide) _ _)
  | negative minus word read =>
      cases otherReading with
      | negative otherMinus otherWord otherRead =>
          obtain ⟨_, sameTail⟩ := List.cons.inj same
          obtain ⟨sameWord, sameRest⟩ := List.cons.inj sameTail
          rw [sameWord] at read
          cases Option.some.inj (read.symm.trans otherRead)
          exact ⟨rfl, sameRest⟩
      | _ => exact absurd (List.cons.inj same).1 (TokenOf.val_ne (by decide) _ _)
  | name word =>
      cases otherReading with
      | name otherWord =>
          obtain ⟨sameWord, sameRest⟩ := List.cons.inj same
          exact ⟨congrArg (fun word : Token => Expr.var word.lexeme) sameWord, sameRest⟩
      | _ => exact absurd (List.cons.inj same).1 (TokenOf.val_ne (by decide) _ _)
  | enclosed opening closing _ ih =>
      cases otherReading with
      | enclosed otherOpening otherClosing otherInner =>
          simp only [List.cons_append, List.append_assoc, List.cons.injEq] at same
          obtain ⟨_, sameTail⟩ := same
          obtain ⟨sameExpr, sameEnd⟩ := ih otherInner sameTail
            (InfixPart.ends_closing .term closing _) (InfixPart.ends_closing .term otherClosing _)
          exact ⟨sameExpr, (List.cons.inj sameEnd).2⟩
      | _ => exact absurd (List.cons.inj same).1 (TokenOf.val_ne (by decide) _ _)
  | chain _ remainder operandIH remainderIH =>
      cases otherReading with
      | chain otherOperand otherRemainder =>
          rw [List.append_assoc, List.append_assoc] at same
          obtain ⟨sameLhs, sameTail⟩ := operandIH otherOperand same
            (remainder.operand_ends ends) (otherRemainder.operand_ends otherEnds)
          subst sameLhs
          exact remainderIH otherRemainder sameTail ends otherEnds
  | stop =>
      cases otherReading with
      | stop => exact ⟨rfl, same⟩
      | more operator separates _ _ =>
          rw [List.nil_append] at same
          subst same
          exact absurd separates (InfixPart.Ends.not_separates (α := α) ends)
  | more operator separates _ remainder operandIH remainderIH =>
      cases otherReading with
      | stop =>
          rw [List.nil_append] at same
          subst same
          exact absurd separates (InfixPart.Ends.not_separates (α := α) otherEnds)
      | more otherOperator _ otherOperand otherRemainder =>
          simp only [List.cons_append, List.append_assoc, List.cons.injEq] at same
          obtain ⟨sameToken, sameTail⟩ := same
          cases OperatorToken.eq_of_token sameToken
          obtain ⟨sameRhs, sameEnd⟩ := operandIH otherOperand sameTail
            (remainder.operand_ends ends) (otherRemainder.operand_ends otherEnds)
          subst sameRhs
          exact remainderIH otherRemainder sameEnd ends otherEnds

/-- Words are read as one expression at most. -/
theorem Infix.unique {part : InfixPart α} {words : List Token} {expr other : Expr α}
    (reading : Infix part words expr) (otherReading : Infix part words other) : expr = other := by
  have ends : part.Ends [] := by
    cases part with
    | factor => trivial
    | chain | remainder =>
        intro word member
        cases member
  have same : words ++ [] = words ++ [] := rfl
  exact (reading.unique_append otherReading same ends ends).1

/-- Where words stand plays no part in what they are read as. -/
theorem Infix.shift (bytes : Nat) {part : InfixPart α} {words : List Token} {expr : Expr α}
    (reading : Infix part words expr) : Infix part (words.map (Token.shift bytes)) expr := by
  induction reading with
  | numeral word read => exact .numeral ⟨word.val.shift bytes, word.property⟩ read
  | negative minus word read =>
      exact .negative ⟨minus.val.shift bytes, minus.property⟩
        ⟨word.val.shift bytes, word.property⟩ read
  | name word => exact .name ⟨word.val.shift bytes, word.property⟩
  | enclosed opening closing _ ih =>
      rw [List.map_cons, List.map_append]
      exact .enclosed ⟨opening.val.shift bytes, opening.property⟩
        ⟨closing.val.shift bytes, closing.property⟩ ih
  | chain _ _ operandIH remainderIH =>
      rw [List.map_append]
      exact .chain operandIH remainderIH
  | stop => exact .stop
  | more operator separates _ _ operandIH remainderIH =>
      rw [List.map_cons, List.map_append]
      exact .more ⟨operator.token.shift bytes, operator.operator, operator.writes⟩ separates
        operandIH remainderIH

/-! ## Chains of operators -/

private theorem Infix.remainder_append {precedence : Precedence} {lhs middle expr : Expr α}
    {words rest : List Token} (first : Infix (.remainder precedence lhs) words middle)
    (second : Infix (.remainder precedence middle) rest expr) :
    Infix (.remainder precedence lhs) (words ++ rest) expr := by
  -- A remainder grows at its end, and its rules take words from its front.
  generalize samePart : InfixPart.remainder precedence lhs = part at first
  induction first generalizing lhs with
  | stop =>
      cases samePart
      exact second
  | more operator separates operand _ _ remainderIH =>
      cases samePart
      rw [List.cons_append, List.append_assoc]
      exact .more operator separates operand (remainderIH second rfl)
  | _ => cases samePart

theorem Infix.chain_append {precedence : Precedence} {lhs expr : Expr α}
    {words rest : List Token} (chain : Infix (.chain precedence) words lhs)
    (remainder : Infix (.remainder precedence lhs) rest expr) :
    Infix (.chain precedence) (words ++ rest) expr := by
  cases chain with
  | chain operand first =>
      rw [List.append_assoc]
      exact .chain operand (first.remainder_append remainder)

theorem Infix.chain_of_operand {precedence : Precedence} {words : List Token} {expr : Expr α}
    (operand : Infix (.operand precedence) words expr) :
    Infix (.chain precedence) words expr := by
  have chain := Infix.chain operand .stop
  rwa [List.append_nil] at chain

/-- One more operand makes a chain the left operand of its last operator. -/
theorem Infix.chain_concat {precedence : Precedence} {lhs rhs : Expr α} {words rest : List Token}
    (chain : Infix (.chain precedence) words lhs) {operator : OperatorToken}
    (separates : precedence.Separates operator.operator)
    (operand : Infix (.operand precedence) rest rhs) :
    Infix (.chain precedence) (words ++ operator.token :: rest)
      (.binary operator.operator lhs rhs) := by
  have remainder : Infix (.remainder precedence lhs) (operator.token :: (rest ++ []))
      (.binary operator.operator lhs rhs) := .more operator separates operand .stop
  rw [List.append_nil] at remainder
  exact chain.chain_append remainder

end Calculator
