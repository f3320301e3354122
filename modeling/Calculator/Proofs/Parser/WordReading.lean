import Calculator.Parser.Grammar

/-!
# Reading words

The words of a source are its tokens other than whitespace. What a parser makes of a
source depends on the words ahead and on the end of the source only, and is defined
here by recursion on these: there is no place to go back to, and no whitespace.
-/

set_option autoImplicit false

namespace Calculator

/-- The tokens that are not whitespace. -/
def wordsOf (tokens : List Token) : List Token :=
  tokens.filter (!·.isWhitespace)

/-- How reading words ends. Either way the operations read on the way are known, in
the order of their closing parentheses. -/
inductive Outcome (β : Type) where
  | done (value : β) (rest : List Token) (completed : List (Located Operator))
  | failed (error : ParseError) (completed : List (Located Operator))

namespace Outcome

variable {β γ : Type}

/-- The outcome with operations put before those that were read. -/
def after (earlier : List (Located Operator)) : Outcome β → Outcome β
  | .done value rest completed => .done value rest (earlier ++ completed)
  | .failed error completed => .failed error (earlier ++ completed)

/-- Goes on with the words left over, unless reading failed. -/
def andThen : Outcome β → (β → List Token → Outcome γ) → Outcome γ
  | .done value rest completed, next => (next value rest).after completed
  | .failed error completed, _ => .failed error completed

def map (f : β → γ) : Outcome β → Outcome γ
  | .done value rest completed => .done (f value) rest completed
  | .failed error completed => .failed error completed

def result : Outcome β → Except ParseError β
  | .done value _ _ => .ok value
  | .failed error _ => .error error

def completed : Outcome β → List (Located Operator)
  | .done _ _ completed | .failed _ completed => completed

@[simp] theorem after_nil (outcome : Outcome β) : outcome.after [] = outcome := by
  cases outcome <;> rfl

@[simp] theorem andThen_done (value : β) (rest : List Token)
    (completed : List (Located Operator)) (next : β → List Token → Outcome γ) :
    (done value rest completed).andThen next = (next value rest).after completed := rfl

@[simp] theorem andThen_failed (error : ParseError) (completed : List (Located Operator))
    (next : β → List Token → Outcome γ) :
    (failed error completed).andThen next = failed error completed := rfl

@[simp] theorem after_done (earlier completed : List (Located Operator)) (value : β)
    (rest : List Token) :
    (done value rest completed).after earlier = done value rest (earlier ++ completed) := rfl

@[simp] theorem after_failed (earlier completed : List (Located Operator))
    (error : ParseError) :
    (failed error completed : Outcome β).after earlier = failed error (earlier ++ completed) :=
  rfl

/-- What is read in two steps is read by the second from what the first left over. -/
theorem andThen_eq_done {outcome : Outcome β} {next : β → List Token → Outcome γ} {value : γ}
    {rest : List Token} {completed : List (Located Operator)}
    (read : outcome.andThen next = .done value rest completed) :
    ∃ middle middleRest earlier later, outcome = .done middle middleRest earlier ∧
      next middle middleRest = .done value rest later ∧ completed = earlier ++ later := by
  cases outcome with
  | failed error completed => cases read
  | done middle middleRest earlier =>
      rw [andThen_done] at read
      cases continued : next middle middleRest with
      | failed error later => rw [continued] at read; cases read
      | done last lastRest later =>
          rw [continued] at read
          cases read
          exact ⟨middle, middleRest, earlier, later, rfl, continued, rfl⟩

theorem map_eq_done {outcome : Outcome β} {f : β → γ} {value : γ} {rest : List Token}
    {completed : List (Located Operator)} (read : outcome.map f = .done value rest completed) :
    ∃ found, outcome = .done found rest completed ∧ f found = value := by
  cases outcome with
  | failed error completed => cases read
  | done found foundRest foundCompleted =>
      cases read
      exact ⟨found, rfl, rfl⟩

end Outcome

/-! ## The grammar on words -/

namespace Words

variable {α β : Type}

/-- The region of the first word, or the end of the source. -/
def frontSpan (endSpan : Span) : List Token → Span
  | [] => endSpan
  | word :: _ => word.span

/-- The error that the first word is none of the expected ones. -/
def unexpected (endSpan : Span) (expected : List TokenKind) : List Token → ParseError
  | [] => ⟨[endSpan], .unexpectedEnd⟩
  | word :: _ =>
      if word.kind = .symbol then ⟨[word.span], .unrecognizedToken word.lexeme⟩
      else ⟨[word.span], .unexpectedToken expected word.kind⟩

def fail (endSpan : Span) (expected : List TokenKind) (words : List Token) : Outcome β :=
  .failed (unexpected endSpan expected words) []

def token (endSpan : Span) (kind : TokenKind) : List Token → Outcome (Located String)
  | [] => fail endSpan [kind] []
  | word :: rest =>
      if word.kind = kind then .done ⟨word.lexeme, word.span⟩ rest []
      else fail endSpan [kind] (word :: rest)

def operator (endSpan : Span) : List Token → Outcome (Located Operator)
  | [] => fail endSpan [.add, .sub, .mul, .div] []
  | word :: rest =>
      match word.kind.operator? with
      | some value => .done ⟨value, word.span⟩ rest []
      | none => fail endSpan [.add, .sub, .mul, .div] (word :: rest)

section Numbers

variable [Numeral α] [Neg α]

/-- Reads a numeral, and makes a number of its value and region. -/
def numeral (endSpan : Span) (finish : α → Span → Located α) :
    List Token → Outcome (Located α)
  | [] => fail endSpan [.num] []
  | word :: rest =>
      if word.kind = .num then
        match Numeral.read? word.lexeme with
        | some value => .done (finish value word.span) rest []
        | none => .failed ⟨[word.span], .invalidNumber word.lexeme⟩ []
      else fail endSpan [.num] (word :: rest)

def number (endSpan : Span) : List Token → Outcome (Located α)
  | [] => numeral endSpan Located.mk []
  | word :: rest =>
      if word.kind = .sub then
        numeral endSpan (fun value span => ⟨-value, word.span.through span⟩) rest
      else numeral endSpan Located.mk (word :: rest)

def nameTree (endSpan : Span) (words : List Token) : Outcome (ParseTree α) :=
  (token endSpan .name words).map fun found => .name found.value found.span

def numberTree (endSpan : Span) (words : List Token) : Outcome (ParseTree α) :=
  (number endSpan words).map fun found => .number found.value found.span

def literal (endSpan : Span) (words : List Token) : Outcome (ParseTree α) :=
  match words.head?.map Token.kind with
  | some .name => nameTree endSpan words
  | some .num | some .sub => numberTree endSpan words
  | _ => fail endSpan [.name, .num] words

def operatorAfter (opening lhs : Span) : List Token → Outcome (Located Operator)
  | [] => .failed ⟨[opening], .unclosedParenthesis true⟩ []
  | word :: rest =>
      match word.kind.operator? with
      | some value => .done ⟨value, word.span⟩ rest []
      | none =>
          if word.kind = .symbol then .failed ⟨[word.span], .unrecognizedToken word.lexeme⟩ []
          else .failed ⟨[lhs, word.span], .expectedOperator word.kind⟩ []

def closing (opening : Span) : List Token → Outcome Span
  | [] => .failed ⟨[opening], .unclosedParenthesis true⟩ []
  | word :: rest =>
      if word.kind = .closeParen then .done word.span rest []
      else if word.kind = .symbol then .failed ⟨[word.span], .unrecognizedToken word.lexeme⟩ []
      else .failed ⟨[opening, word.span], .expectedCloseParen word.kind⟩ []

/-- Reads an operation behind its parenthesis, with `operand` for its operands. -/
def enclosed (operand : List Token → Outcome (ParseTree α)) (opening : Span)
    (words : List Token) : Outcome (ParseTree α) :=
  (operand words).andThen fun lhs rest =>
    (operatorAfter opening lhs.span rest).andThen fun operator rest =>
      (operand rest).andThen fun rhs rest =>
        (closing opening rest).andThen fun close rest =>
          .done (.operation lhs operator rhs (opening.through close)) rest
            [⟨operator.value, opening.through close⟩]

/-- Reads a parenthesized operation, with `inside` for what follows its parenthesis. -/
def operationOf (endSpan : Span) (inside : Span → List Token → Outcome (ParseTree α))
    (words : List Token) : Outcome (ParseTree α) :=
  (token endSpan .openParen words).andThen fun opening rest => inside opening.span rest

def expressionOf (endSpan : Span) (inside : Span → List Token → Outcome (ParseTree α))
    (words : List Token) : Outcome (ParseTree α) :=
  match words.head?.map Token.kind with
  | some .openParen => operationOf endSpan inside words
  | some .name | some .num | some .sub => literal endSpan words
  | _ => fail endSpan [.openParen, .name, .num] words

/-- Reads what follows a parenthesis, where `levels` parentheses may be nested from
that one on. -/
def inside (endSpan : Span) : Nat → Span → List Token → Outcome (ParseTree α)
  | 0 => fun opening _ => .failed ⟨[opening], .nestingTooDeep nestingLimit⟩ []
  | levels + 1 => enclosed (expressionOf endSpan (inside endSpan levels))

def expression (endSpan : Span) (levels : Nat) : List Token → Outcome (ParseTree α) :=
  expressionOf endSpan (inside endSpan levels)

def operation (endSpan : Span) (levels : Nat) : List Token → Outcome (ParseTree α) :=
  operationOf endSpan (inside endSpan levels)

/-- Reads what a production describes. -/
def read (endSpan : Span) (levels : Nat) (production : Production) (words : List Token) :
    Outcome (Phrase α) :=
  match production with
  | .expression => (expression endSpan levels words).map .tree
  | .operation => (operation endSpan levels words).map .tree
  | .literal => (literal endSpan words).map .tree
  | .number => (numberTree endSpan words).map .tree
  | .name => (nameTree endSpan words).map .tree
  | .operator => (operator endSpan words).map .operator

end Numbers

/-- Refuses words that are left over. -/
def finish (endSpan : Span) (value : β) : List Token → Outcome β
  | [] => .done value [] []
  | word :: _ =>
      if word.kind = .closeParen then .failed ⟨[word.span], .unclosedParenthesis false⟩ []
      else .failed ⟨[word.span.through endSpan], .expectedEnd⟩ []

/-- Reads all words. -/
def whole (endSpan : Span) (read : List Token → Outcome β) : List Token → Outcome β
  | [] => .failed ⟨[endSpan], .emptyExpression⟩ []
  | word :: rest => (read (word :: rest)).andThen (finish endSpan)

end Words

end Calculator
