import Calculator.Proofs.Parser.Agreement

/-!
# The grammar agrees with its words

Each action of the grammar ends as the reading of the words ahead does. The number of
parentheses that may still be nested is what the parser's own depth leaves of the
limit.
-/

set_option autoImplicit false

namespace Calculator

/-- The outcome where failing is no failure: there is no value then, and all of `words`
are left over. -/
def Outcome.orNone {β : Type} (words : List Token) : Outcome β → Outcome (Option β)
  | .done value rest completed => .done (some value) rest completed
  | .failed _ completed => .done none words completed

namespace Words

/-- The next word, unless it is a symbol. -/
def next (endSpan : Span) : List Token → Outcome Token
  | [] => .failed ⟨[endSpan], .unexpectedEnd⟩ []
  | word :: rest =>
      if word.kind = .symbol then .failed ⟨[word.span], .unrecognizedToken word.lexeme⟩ []
      else .done word rest []

private theorem token_eq_next (endSpan : Span) {kind : TokenKind} (solid : kind ≠ .symbol)
    (words : List Token) :
    token endSpan kind words =
      (next endSpan words).andThen fun found rest =>
        if found.kind = kind then .done ⟨found.lexeme, found.span⟩ rest []
        else .failed ⟨[found.span], .unexpectedToken [kind] found.kind⟩ [] := by
  cases words with
  | nil => rfl
  | cons word rest =>
      by_cases symbol : word.kind = .symbol
      · simp [token, next, fail, unexpected, symbol, solid.symm]
      · simp [token, next, fail, unexpected, symbol]

private theorem number_eq_orNone {α : Type} [Numeral α] [Neg α] (endSpan : Span)
    (words : List Token) : number (α := α) endSpan words =
      ((token endSpan .sub words).orNone words).andThen fun minus? rest =>
        match minus? with
        | some minus =>
            numeral endSpan (fun (value : α) span => ⟨-value, minus.span.through span⟩) rest
        | none => numeral endSpan Located.mk rest := by
  cases words with
  | nil => rfl
  | cons word rest =>
      by_cases isMinus : word.kind = .sub <;>
        simp [number, token, fail, Outcome.orNone, isMinus]

private theorem operator_eq_next (endSpan : Span) (words : List Token) :
    operator endSpan words =
      (next endSpan words).andThen fun found rest =>
        match found.kind.operator? with
        | some value => .done ⟨value, found.span⟩ rest []
        | none =>
            .failed ⟨[found.span], .unexpectedToken [.add, .sub, .mul, .div] found.kind⟩ [] := by
  cases words with
  | nil => rfl
  | cons word rest =>
      by_cases symbol : word.kind = .symbol
      · simp [operator, next, fail, unexpected, symbol, TokenKind.operator?]
      · rw [next, if_neg symbol, Outcome.andThen_done, Outcome.after_nil, operator]
        cases word.kind.operator? with
        | some value => rfl
        | none => rw [fail, unexpected, if_neg symbol]

end Words

namespace Parser

private theorem next_agrees (parser : Parser) :
    Agrees parser (next parser) (Words.next parser.endSpan parser.words) := by
  unfold next
  have skipped := kept_skipWhitespace parser
  rcases ahead_skipWhitespace parser with ⟨empty, noWords⟩ | ⟨word, rest, found, words⟩
  · simp only [empty, noWords, Words.next, errorHere, span_skipWhitespace, Words.frontSpan]
    exact .failed skipped
  · have passed : Kept parser { parser.skipWhitespace with
        passed := word :: parser.skipWhitespace.passed, ahead := rest } [] :=
      ⟨by simpa [tokens, found] using skipped.tokens, rfl, rfl⟩
    simp only [found, words, Words.next]
    split
    · exact .failed passed
    · exact .done passed

theorem token_agrees (kind : TokenKind) (solid : kind ≠ .symbol) (parser : Parser) :
    Agrees parser (token kind parser) (Words.token parser.endSpan kind parser.words) := by
  rw [Words.token_eq_next parser.endSpan solid]
  refine .bind (next_agrees parser) fun found after _ _ => ?_
  by_cases same : found.kind = kind
  · rw [if_pos same, if_pos same]
    exact .done (.refl after)
  · rw [if_neg same, if_neg same]
    exact .failed (.refl after)

private theorem operator_agrees (parser : Parser) :
    Agrees parser (operator parser) (Words.operator parser.endSpan parser.words) := by
  rw [Words.operator_eq_next]
  refine .bind (next_agrees parser) fun found after _ _ => ?_
  cases found.kind.operator? with
  | some value => exact .done (.refl after)
  | none => exact .failed (.refl after)

private theorem Agrees.optional {β : Type} {action : ParserM β} {start : Parser}
    {outcome : Outcome β} (agrees : Agrees start (action start) outcome) :
    Agrees start (optional action start) (outcome.orNone start.words) := by
  unfold Parser.optional Parser.attempt
  cases ran : action start with
  | ok value after =>
      rw [ran] at agrees
      cases agrees with
      | done kept => exact .done kept
  | error error after =>
      rw [ran] at agrees
      cases agrees with
      | @failed _ _ completed kept =>
          have back : Kept start (start.backTo after) completed :=
            ⟨rfl, kept.depth, kept.completed⟩
          exact .done back

private theorem nameTree_agrees {α : Type} (parser : Parser) :
    Agrees parser (nameTree (α := α) parser)
      (Words.nameTree (α := α) parser.endSpan parser.words) :=
  .bind_pure (token_agrees .name (by decide) parser).attempt

private theorem operatorAfter_agrees {α : Type} (opening : Span) (lhs : ParseTree α)
    (parser : Parser) : Agrees parser (operatorAfter opening lhs parser)
      (Words.operatorAfter opening lhs.span parser.words) := by
  have skipped := kept_skipWhitespace parser
  have words := words_skipWhitespace parser
  refine .of_peek ?_
  cases found : parser.words with
  | nil => exact .failed (.refl _)
  | cons word rest =>
      rw [found] at words
      have spanHere : parser.skipWhitespace.span = word.span := by
        rw [span_skipWhitespace, found, Words.frontSpan]
      cases kind : word.kind with
      | add | sub | mul | div =>
          have read := (operator_agrees parser.skipWhitespace).attempt
          rw [words] at read
          simp only [Words.operator, Words.operatorAfter, kind, TokenKind.operator?,
            List.head?_cons, Option.map_some] at read ⊢
          exact read
      | symbol =>
          have read := failUnexpected_agrees (β := Located Operator) [] parser.skipWhitespace
          rw [words] at read
          simp only [Words.fail, Words.unexpected, Words.operatorAfter, kind, if_true,
            TokenKind.operator?, List.head?_cons, Option.map_some] at read ⊢
          exact read
      | _ =>
          simp only [List.head?_cons, Option.map_some, kind, Words.operatorAfter,
            TokenKind.operator?, reduceCtorEq, if_false, ← spanHere]
          exact .failed (.refl _)

private theorem closing_agrees (opening : Span) (parser : Parser) :
    Agrees parser (closing opening parser) (Words.closing opening parser.words) := by
  have skipped := kept_skipWhitespace parser
  have words := words_skipWhitespace parser
  refine .of_peek ?_
  cases found : parser.words with
  | nil => exact .failed (.refl _)
  | cons word rest =>
      rw [found] at words
      have spanHere : parser.skipWhitespace.span = word.span := by
        rw [span_skipWhitespace, found, Words.frontSpan]
      cases kind : word.kind with
      | closeParen =>
          have read :=
            (token_agrees .closeParen (by decide) parser.skipWhitespace).attempt.map Located.span
          rw [words] at read
          simp only [Words.token, Words.closing, kind, if_true, Outcome.map, List.head?_cons,
            Option.map_some] at read ⊢
          exact read
      | symbol =>
          have read :=
            failUnexpected_agrees (β := Span) [.closeParen] parser.skipWhitespace
          rw [words] at read
          simp only [Words.fail, Words.unexpected, Words.closing, kind, if_true,
            List.head?_cons, Option.map_some, reduceCtorEq, if_false] at read ⊢
          exact read
      | _ =>
          simp only [List.head?_cons, Option.map_some, kind, Words.closing, reduceCtorEq,
            if_false, ← spanHere]
          exact .failed (.refl _)

private theorem complete_agrees {β : Type} (operator : Operator) (span : Span) (value : β)
    (parser : Parser) :
    Agrees parser ((complete operator span >>= fun _ => pure value) parser)
      (.done value parser.words [⟨operator, span⟩]) :=
  .done ⟨rfl, rfl, rfl⟩

private theorem nested_agrees {β : Type} {action : ParserM β} {outcome : Outcome β} (opening : Span)
    {parser : Parser} (room : parser.depth < nestingLimit)
    (agrees : Agrees { parser with depth := parser.depth + 1 }
      (action { parser with depth := parser.depth + 1 }) outcome) :
    Agrees parser (nested opening action parser) outcome := by
  unfold nested nestedOr
  rw [if_pos room]
  cases ran : action { parser with depth := parser.depth + 1 } with
  | ok value after =>
      rw [ran] at agrees
      cases agrees with
      | done kept =>
          have back : Kept parser { after with depth := after.depth - 1 } _ :=
            ⟨kept.tokens, by simp [kept.depth], kept.completed⟩
          exact .done back
  | error error after =>
      rw [ran] at agrees
      cases agrees with
      | failed kept => exact .failed ⟨kept.tokens, by simp [kept.depth], kept.completed⟩

/-- The body of a parenthesis, where each operand agrees with the words of some reading
at the depth of the body. -/
theorem enclosed_agrees {α : Type} {operand : ParserM (ParseTree α)} {depth : Nat}
    (reading : Span → List Token → Outcome (ParseTree α))
    (reads : ∀ start : Parser, start.depth = depth →
      Agrees start (operand start) (reading start.endSpan start.words))
    (opening : Span) (parser : Parser) (deep : parser.depth = depth) :
    Agrees parser
      ((do
        let lhs ← attempt operand
        let operator ← operatorAfter opening lhs
        let rhs ← attempt operand
        let span := opening.through (← closing opening)
        complete operator.value span
        return ParseTree.operation lhs operator rhs span) parser)
      (Words.enclosed (reading parser.endSpan) opening parser.words) := by
  refine .bind (reads parser deep).attempt fun lhs afterLhs _ keptLhs => ?_
  refine .bind (operatorAfter_agrees opening lhs afterLhs) fun operator middle _ keptOperator => ?_
  have keptMiddle := keptLhs.trans keptOperator
  rw [← keptMiddle.endSpan]
  refine .bind (reads middle (keptMiddle.depth.trans deep)).attempt fun rhs afterRhs _ _ => ?_
  refine .bind (closing_agrees opening afterRhs) fun close last _ _ => ?_
  exact complete_agrees operator.value _ _ last

section Numbers

variable {α : Type} [Numeral α]

private theorem numeralValue_agrees {γ : Type} (numeral : Located String) (finish : α → γ)
    (parser : Parser) :
    Agrees parser ((numeralValue numeral >>= fun value => pure (finish value)) parser)
      (match (Numeral.read? numeral.value : Option α) with
        | some value => .done (finish value) parser.words []
        | none => .failed ⟨[numeral.span], .invalidNumber numeral.value⟩ []) := by
  unfold numeralValue
  cases Numeral.read? (α := α) numeral.value with
  | some value => exact .done (.refl parser)
  | none => exact .failed (.refl parser)

private theorem numeral_agrees (finish : α → Span → Located α) (parser : Parser) :
    Agrees parser
      ((attempt (token .num) >>= fun numeral =>
        numeralValue numeral >>= fun value => pure (finish value numeral.span)) parser)
      (Words.numeral parser.endSpan finish parser.words) := by
  have same : Words.numeral parser.endSpan finish parser.words =
      (Words.token parser.endSpan .num parser.words).andThen fun numeral rest =>
        match (Numeral.read? numeral.value : Option α) with
        | some value => .done (finish value numeral.span) rest []
        | none => .failed ⟨[numeral.span], .invalidNumber numeral.value⟩ [] := by
    cases parser.words with
    | nil => rfl
    | cons word rest =>
        by_cases isNumeral : word.kind = .num
        · rw [Words.numeral, Words.token, if_pos isNumeral, if_pos isNumeral]
          exact (Outcome.after_nil _).symm
        · rw [Words.numeral, Words.token, if_neg isNumeral, if_neg isNumeral]
          rfl
  rw [same]
  exact .bind (token_agrees .num (by decide) parser).attempt
    fun numeral after _ _ => numeralValue_agrees numeral (finish · numeral.span) after

variable [Neg α]

private theorem number_agrees (parser : Parser) :
    Agrees parser (number (α := α) parser) (Words.number parser.endSpan parser.words) := by
  rw [Words.number_eq_orNone]
  refine .bind (token_agrees .sub (by decide) parser).optional fun minus? after _ kept => ?_
  rw [← kept.endSpan]
  cases minus? with
  | some minus =>
      exact numeral_agrees (fun (value : α) span => ⟨-value, minus.span.through span⟩) after
  | none => exact numeral_agrees Located.mk after

private theorem numberTree_agrees (parser : Parser) :
    Agrees parser (numberTree (α := α) parser)
      (Words.numberTree (α := α) parser.endSpan parser.words) :=
  .bind_pure (number_agrees parser)

private theorem literal_agrees (parser : Parser) :
    Agrees parser (literal (α := α) parser)
      (Words.literal (α := α) parser.endSpan parser.words) := by
  have skipped := kept_skipWhitespace parser
  refine .of_peek ?_
  rw [← words_skipWhitespace parser, ← skipped.endSpan]
  unfold Words.literal
  generalize parser.skipWhitespace.words.head?.map Token.kind = kind?
  cases kind? with
  | none => exact failUnexpected_agrees _ _
  | some kind =>
      cases kind with
      | name => exact (nameTree_agrees _).attempt
      | num => exact (numberTree_agrees _).attempt
      | sub => exact (numberTree_agrees _).attempt
      | _ => exact failUnexpected_agrees _ _

private theorem operationOf_agrees {operand : ParserM (ParseTree α)} {levels : Nat}
    (reads : ∀ fewer, levels = fewer + 1 → ∀ start : Parser,
      start.depth + fewer = nestingLimit →
        Agrees start (operand start) (Words.expression (α := α) start.endSpan fewer start.words))
    (parser : Parser) (room : parser.depth + levels = nestingLimit) :
    Agrees parser (operationOf operand parser)
      (Words.operation (α := α) parser.endSpan levels parser.words) := by
  refine .bind (token_agrees .openParen (by decide) parser).attempt
    fun opening after _ kept => ?_
  rw [← kept.endSpan]
  rw [← kept.depth] at room
  cases levels with
  | zero =>
      have full : ¬ after.depth < nestingLimit := by omega
      unfold nested nestedOr
      rw [if_neg full]
      exact .failed (.refl after)
  | succ fewer =>
      have operandReads : ∀ start : Parser, start.depth = after.depth + 1 →
          Agrees start (operand start) (Words.expression start.endSpan fewer start.words) :=
        fun start deep => reads fewer rfl start (by omega)
      refine nested_agrees opening.span (by omega) ?_
      exact enclosed_agrees (Words.expression · fewer) operandReads opening.span _ rfl

private theorem expressionOf_agrees {operation : ParserM (ParseTree α)}
    {inside : Span → List Token → Outcome (ParseTree α)} (parser : Parser)
    (agrees : Agrees parser.skipWhitespace (operation parser.skipWhitespace)
      (Words.operationOf parser.endSpan inside parser.words)) :
    Agrees parser (expressionOf operation parser)
      (Words.expressionOf parser.endSpan inside parser.words) := by
  have words := words_skipWhitespace parser
  have endSpan := (kept_skipWhitespace parser).endSpan
  have leaf := (literal_agrees (α := α) parser.skipWhitespace).attempt
  have refused := failUnexpected_agrees (β := ParseTree α) [.openParen, .name, .num]
    parser.skipWhitespace
  rw [words, endSpan] at leaf refused
  refine .of_peek ?_
  unfold Words.expressionOf
  generalize parser.words.head?.map Token.kind = kind?
  cases kind? with
  | none => exact refused
  | some kind =>
      cases kind with
      | openParen => exact agrees.attempt
      | name | num | sub => exact leaf
      | _ => exact refused

private theorem expressionWithin_agrees (levels : Nat) (parser : Parser)
    (room : parser.depth + levels = nestingLimit) :
    Agrees parser (expressionWithin (α := α) levels parser)
      (Words.expression parser.endSpan levels parser.words) := by
  induction levels generalizing parser with
  | zero =>
      refine expressionOf_agrees parser ?_
      rw [← words_skipWhitespace, ← (kept_skipWhitespace parser).endSpan]
      exact operationOf_agrees (fun _ some => by cases some) _ room
  | succ levels ih =>
      refine expressionOf_agrees parser ?_
      rw [← words_skipWhitespace, ← (kept_skipWhitespace parser).endSpan]
      refine operationOf_agrees ?_ _ room
      intro fewer same start deep
      cases same
      exact ih start deep

private theorem expression_agrees (parser : Parser) (depth : parser.depth ≤ nestingLimit) :
    Agrees parser (expression (α := α) parser)
      (Words.expression parser.endSpan (nestingLimit - parser.depth) parser.words) :=
  expressionWithin_agrees (nestingLimit - parser.depth) parser (by omega)

private theorem operation_agrees (parser : Parser) (depth : parser.depth ≤ nestingLimit) :
    Agrees parser (operation (α := α) parser)
      (Words.operation parser.endSpan (nestingLimit - parser.depth) parser.words) := by
  refine operationOf_agrees ?_ parser (by omega)
  intro fewer same start deep
  have levels : nestingLimit - parser.depth - 1 = fewer := by omega
  rw [levels]
  exact expressionWithin_agrees fewer start deep

/-- Every production agrees with its reading of the words ahead, at any depth. -/
theorem read_agrees (production : Production) (parser : Parser)
    (depth : parser.depth ≤ nestingLimit) :
    Agrees parser (production.read (α := α) parser)
      (Words.read parser.endSpan (nestingLimit - parser.depth) production parser.words) := by
  cases production with
  | expression => exact (expression_agrees parser depth).map Phrase.tree
  | operation => exact (operation_agrees parser depth).map Phrase.tree
  | literal => exact (literal_agrees parser).map Phrase.tree
  | number => exact (numberTree_agrees parser).map Phrase.tree
  | name => exact (nameTree_agrees parser).map Phrase.tree
  | operator => exact (operator_agrees parser).map Phrase.operator

end Numbers

private theorem whole_agrees {β : Type} {action : ParserM β}
    {reading : Span → List Token → Outcome β} (parser : Parser)
    (agrees : Agrees parser.skipWhitespace (action parser.skipWhitespace)
      (reading parser.endSpan parser.words)) :
    Agrees parser (whole action parser)
      (Words.whole parser.endSpan (reading parser.endSpan) parser.words) := by
  have endSpan := (kept_skipWhitespace parser).endSpan
  refine .of_peek ?_
  cases found : parser.words with
  | nil =>
      rw [List.head?_nil, Words.whole, ← endSpan]
      exact .failed (.refl _)
  | cons word rest =>
      rw [found] at agrees
      refine .bind agrees fun value after _ kept => .of_peek ?_
      rw [← endSpan, ← kept.endSpan]
      have spanHere := span_skipWhitespace after
      have endHere := (kept_skipWhitespace after).endSpan
      cases left : after.words with
      | nil =>
          have ended : Agrees after.skipWhitespace (.ok value after.skipWhitespace)
              (.done value after.skipWhitespace.words []) := .done (.refl _)
          rw [words_skipWhitespace, left] at ended
          exact ended
      | cons word rest =>
          rw [left, Words.frontSpan] at spanHere
          simp only [List.head?_cons, Option.map_some, Words.finish]
          cases kind : word.kind with
          | closeParen =>
              simp only [if_true, ← spanHere]
              exact .failed (.refl _)
          | _ =>
              simp only [reduceCtorEq, if_false, ← spanHere, ← endHere]
              exact .failed (.refl _)

end Parser

/-! ## Sources -/

/-- The words of a source. -/
def sourceWords (source : String) : List Token :=
  wordsOf (tokenize source)

/-- The empty region at the end of a source. -/
def sourceEnd (source : String) : Span :=
  (Parser.ofSource source).endSpan

section Sources

variable {α : Type} [Numeral α] [Neg α]

/-- The whole of a source is read as its words are. -/
theorem Parser.wholeSource_agrees {β : Type} (action : ParserM β)
    (reading : Span → List Token → Outcome β) (source : String)
    (agrees : ∀ start : Parser, start.depth = 0 →
      Agrees start (action start) (reading start.endSpan start.words)) :
    Agrees (ofSource source) (whole action (ofSource source))
      (Words.whole (sourceEnd source) (reading (sourceEnd source)) (sourceWords source)) := by
  have start := agrees (ofSource source).skipWhitespace rfl
  rw [words_skipWhitespace, (kept_skipWhitespace _).endSpan] at start
  exact whole_agrees (ofSource source) start

theorem Production.parse_eq (production : Production) (source : String) :
    production.parse (α := α) source =
      (Words.whole (sourceEnd source)
        (Words.read (sourceEnd source) nestingLimit production) (sourceWords source)).result := by
  have agrees := Parser.wholeSource_agrees (production.read (α := α))
    (Words.read · nestingLimit production) source fun start depth => by
      have read := Parser.read_agrees (α := α) production start (by omega)
      rwa [depth] at read
  unfold Production.parse
  revert agrees
  generalize Parser.whole _ _ = ended
  generalize Words.whole _ _ _ = outcome
  intro agrees
  cases agrees <;> rfl

/-- What is read of a source, and the operations read on the way, are those of its
words. -/
theorem ParseTree.parseCompleting_eq (source : String) :
    ParseTree.parseCompleting (α := α) source =
      ((Words.whole (sourceEnd source)
          (Words.expression (sourceEnd source) nestingLimit) (sourceWords source)).result,
        (Words.whole (sourceEnd source)
          (Words.expression (α := α) (sourceEnd source) nestingLimit)
          (sourceWords source)).completed) := by
  have agrees := Parser.wholeSource_agrees (Parser.expression (α := α))
    (Words.expression · nestingLimit) source fun start depth => by
      have read := Parser.expression_agrees (α := α) start (by omega)
      rwa [depth] at read
  unfold ParseTree.parseCompleting
  revert agrees
  generalize Parser.whole _ _ = ended
  generalize Words.whole _ _ _ = outcome
  intro agrees
  cases agrees with
  | done kept => simp [kept.completed, Outcome.result, Outcome.completed, Parser.ofSource]
  | failed kept => simp [kept.completed, Outcome.result, Outcome.completed, Parser.ofSource]

end Sources

end Calculator
