import Calculator.Proofs.Parser.Routine

/-!
# The grammar consists of routines

Each action of the grammar is put together from the operations of a parser, and so is each
program that drives one.
-/

set_option autoImplicit false

namespace Calculator

namespace Parser

theorem peek_isRoutine : IsRoutine peek := .perform .peek

theorem get_isRoutine : IsRoutine (get : ParserM Parser) := .perform (.inspect id)

theorem failUnexpected_isRoutine {β : Type} (expected : List TokenKind) :
    IsRoutine (failUnexpected (β := β) expected) :=
  .bind (.perform (.unexpected expected)) .throw

theorem optional_isRoutine {β : Type} {action : ParserM β} (routine : IsRoutine action) :
    IsRoutine (optional action) := by
  refine routine.attempt.answered Except.toOption fun start => ?_
  unfold optional
  cases attempt action start <;> rfl

theorem token_isRoutine (kind : TokenKind) : IsRoutine (token kind) := by
  refine .bind (.perform .next) fun found => ?_
  split
  · exact .pure _
  · exact .throw _

theorem operator_isRoutine : IsRoutine operator := by
  refine .bind (.perform .next) fun found => ?_
  split
  · exact .pure _
  · exact .throw _

private theorem name_isRoutine : IsRoutine name := (token_isRoutine .name).attempt

section Trees

variable {α : Type}

theorem nameTree_isRoutine : IsRoutine (nameTree (α := α)) :=
  name_isRoutine.map _

theorem operatorAfter_isRoutine (opening : Span) (lhs : ParseTree α) :
    IsRoutine (operatorAfter opening lhs) := by
  refine .bind peek_isRoutine fun kind? => ?_
  split
  · exact .throw _
  · exact failUnexpected_isRoutine _
  · split
    · exact operator_isRoutine.attempt
    · exact .bind get_isRoutine fun _ => .throw _

theorem closing_isRoutine (opening : Span) : IsRoutine (closing opening) := by
  refine .bind peek_isRoutine fun kind? => ?_
  split
  · exact .throw _
  · exact .map _ (token_isRoutine .closeParen).attempt
  · exact failUnexpected_isRoutine _
  · exact .bind get_isRoutine fun _ => .throw _

theorem operationOf_isRoutine {operand : ParserM (ParseTree α)} (routine : IsRoutine operand) :
    IsRoutine (operationOf operand) := by
  refine .bind (token_isRoutine .openParen).attempt fun opening => .nestedOr id opening.span ?_
  refine routine.attempt.bind fun lhs => ?_
  refine .bind (operatorAfter_isRoutine opening.span lhs) fun operator => ?_
  refine routine.attempt.bind fun rhs => ?_
  refine .bind (closing_isRoutine opening.span) fun closing => ?_
  let span := opening.span.through closing
  exact .bind (.perform (.complete operator.value span)) fun _ => .pure _

variable [Numeral α] [Neg α]

theorem number_isRoutine : IsRoutine (number (α := α)) := by
  have numeralValue (numeral : Located String) : IsRoutine (numeralValue (α := α) numeral) := by
    unfold Parser.numeralValue
    split
    · exact .pure _
    · exact .throw _
  have numeral := (token_isRoutine .num).attempt
  refine .bind (optional_isRoutine (token_isRoutine .sub)) fun minus? => ?_
  split
  · exact numeral.bind fun found => (numeralValue found).bind fun _ => .pure _
  · exact numeral.bind fun found => (numeralValue found).bind fun _ => .pure _

theorem numberTree_isRoutine : IsRoutine (numberTree (α := α)) :=
  number_isRoutine.map _

theorem literal_isRoutine : IsRoutine (literal (α := α)) := by
  refine .bind peek_isRoutine fun kind? => ?_
  split
  · exact nameTree_isRoutine.attempt
  · exact numberTree_isRoutine.attempt
  · exact numberTree_isRoutine.attempt
  · exact failUnexpected_isRoutine _

private theorem expressionOf_isRoutine {operation : ParserM (ParseTree α)}
    (routine : IsRoutine operation) : IsRoutine (expressionOf operation) := by
  refine .bind peek_isRoutine fun kind? => ?_
  split
  · exact routine.attempt
  · exact literal_isRoutine.attempt
  · exact literal_isRoutine.attempt
  · exact literal_isRoutine.attempt
  · exact failUnexpected_isRoutine _

theorem expressionWithin_isRoutine (levels : Nat) :
    IsRoutine (expressionWithin (α := α) levels) := by
  induction levels with
  | zero => exact expressionOf_isRoutine (operationOf_isRoutine (failUnexpected_isRoutine []))
  | succ levels ih => exact expressionOf_isRoutine (operationOf_isRoutine ih)

theorem whole_isRoutine {β : Type} {action : ParserM β} (routine : IsRoutine action) :
    IsRoutine (whole action) := by
  refine .bind peek_isRoutine fun first? => ?_
  split
  · exact .bind get_isRoutine fun _ => .throw _
  · refine routine.bind fun value => .bind peek_isRoutine fun last? => ?_
    split
    · exact .pure _
    · exact .bind get_isRoutine fun _ => .throw _
    · exact .bind get_isRoutine fun _ => .throw _

end Trees

theorem read_isRoutine {α : Type} [Numeral α] [Neg α] :
    ∀ production : Production, IsRoutine (production.read (α := α))
  | .expression => .map _ (.bind get_isRoutine fun _ => expressionWithin_isRoutine _)
  | .operation =>
      .map _ (.bind get_isRoutine fun _ => operationOf_isRoutine (expressionWithin_isRoutine _))
  | .literal => literal_isRoutine.map _
  | .number => numberTree_isRoutine.map _
  | .name => nameTree_isRoutine.map _
  | .operator => operator_isRoutine.map _

/-! ## Parser programs -/

private theorem answerOf_isRoutine {α β ε : Type} {action : ParserM β} (answer : β → Answer α)
    (routine : IsRoutine action) :
    IsRoutine (fun start => .ok (answerOf answer (action start)).1
      (answerOf answer (action start)).2 : ParseAction ε (Answer α)) := by
  refine routine.answered (fun
    | .ok value => answer value
    | .error error => .error error) fun start => ?_
  cases action start <;> rfl

private theorem scopeAnswer_isRoutine {α ε : Type}
    {action : ParseAction (ScopeFailure α) (List (Observation α))} (routine : IsRoutine action) :
    IsRoutine (fun start => .ok (scopeAnswer (action start)).1
      (scopeAnswer (action start)).2 : ParseAction ε (Answer α)) := by
  refine routine.answered (fun
    | .ok inner => .scoped (some inner) none
    | .error failure => .scoped failure.inner (some failure.error)) fun start => ?_
  cases action start <;> rfl

private theorem nestedTimes_isRoutine {ε β : Type} {action : ParseAction ε β}
    (refusal : ParseError → ε) (routine : IsRoutine action) (levels : Nat) :
    IsRoutine (nestedTimes refusal levels action) := by
  induction levels with
  | zero => exact routine
  | succ levels ih => exact ih.nestedOr refusal ⟨0, 1⟩

private theorem concludeScope_isRoutine {α : Type} (fails : Bool) (inner : List (Observation α)) :
    IsRoutine (concludeScope fails inner) := by
  unfold concludeScope
  cases fails with
  | false => exact .pure inner
  | true =>
      have looked : IsRoutine (ε := ScopeFailure α)
          (fun parser => .ok (parser.errorHere .expectedEnd) parser) :=
        .inspect _
      exact looked.bind fun error => .throw ⟨error, some inner⟩

mutual

theorem follow_isRoutine {α ε : Type} [Numeral α] [Neg α] : ∀ instruction : Instruction,
    IsRoutine (fun start => .ok (follow (α := α) instruction start).1
      (follow (α := α) instruction start).2 : ParseAction ε (Answer α))
  | .peek => answerOf_isRoutine .kind peek_isRoutine
  | .next => answerOf_isRoutine .token (.perform .next)
  | .span | .endSpan | .errorHere => .inspect _
  | .unexpected expected => answerOf_isRoutine .error (.perform (.unexpected expected))
  | .read production => answerOf_isRoutine .phrase (read_isRoutine production).attempt
  | .readWhole production => answerOf_isRoutine .phrase (whole_isRoutine (read_isRoutine production))
  | .fork _ => .inspect _
  | .attempt program fails =>
      scopeAnswer_isRoutine
        ((run_isRoutine program).bind (concludeScope_isRoutine fails)).attempt
  | .nested program fails levels =>
      scopeAnswer_isRoutine (nestedTimes_isRoutine _
        ((run_isRoutine program).bind (concludeScope_isRoutine fails)) levels)

private theorem run_isRoutine {α ε : Type} [Numeral α] [Neg α] : ∀ program : List Instruction,
    IsRoutine (fun start => .ok (run (α := α) program start).1
      (run (α := α) program start).2 : ParseAction ε (List (Observation α)))
  | [] => .pure []
  | instruction :: rest => by
      have observed (answer : Answer α) :
          IsRoutine (ε := ε) (fun parser =>
            .ok (Observation.mk answer parser.previous? parser.current?) parser) :=
        .inspect _
      exact (follow_isRoutine instruction).bind fun answer =>
        (observed answer).bind fun observation => (run_isRoutine rest).map (observation :: ·)

end

/-- A parser program ends in the tokens that it started in, inside of as many parentheses. -/
theorem run_onward {α : Type} [Numeral α] [Neg α] (program : ParserProgram) (start : Parser) :
    Onward start (run (α := α) program start).2 :=
  (run_isRoutine (ε := Empty) program).onward start

end Parser

end Calculator
