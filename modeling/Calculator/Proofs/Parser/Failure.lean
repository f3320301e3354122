import Calculator.Proofs.Parser.Exactness
import Calculator.Proofs.Parser.MatchingParentheses

/-!
# Where reading fails

A reader that fails has read words that may stand where they do, and blames the first that
may not, or the end of the source if there is none. The operations that it has completed are
those whose parentheses are closed in the words read.
-/

set_option autoImplicit false

namespace Calculator

/-- Whether a fault says that a word is of the wrong kind where it stands. -/
def ParseFault.isMisplaced : ParseFault → Bool
  | .unexpectedToken _ _ | .unrecognizedToken _ => true
  | .expectedOperator _ | .expectedCloseParen _ => true
  | _ => false

/-- The errors for the words that a scan has ahead of it, if there is none or if the first of
them may not stand there. -/
inductive Scan.Blames (α : Type) [Numeral α] (endSpan : Span) :
    Scan → List Token → ParseError → Prop where
  | operandMissing {opened : List OpenOperation} {expects : Expectation} :
      expects ≠ .continuation → Blames α endSpan ⟨opened, expects⟩ [] ⟨[endSpan], .unexpectedEnd⟩
  | unclosed {operation : OpenOperation} {outer : List OpenOperation} :
      Blames α endSpan ⟨operation :: outer, .continuation⟩ []
        ⟨[operation.opening.span], .unclosedParenthesis true⟩
  | unreadable {scan : Scan} (word : TokenOf .num) {rest : List Token} :
      (Numeral.read? word.val.lexeme : Option α) = none →
      Blames α endSpan scan (word.val :: rest)
        ⟨[word.val.span], .invalidNumber word.val.lexeme⟩
  | tooDeep {opened : List OpenOperation} (opening : TokenOf .openParen) {rest : List Token} :
      opened.length = nestingLimit →
      Blames α endSpan ⟨opened, .operand⟩ (opening.val :: rest)
        ⟨[opening.val.span], .nestingTooDeep nestingLimit⟩
  | misplaced (spans : List Span) {scan : Scan} {word : Token} {rest : List Token}
      {fault : ParseFault} :
      scan.step word = none → (scan.expects = .operand → word.kind ≠ .openParen) →
      (scan.expects = .continuation → scan.opened ≠ []) → fault.isMisplaced = true →
      Blames α endSpan scan (word :: rest) ⟨spans ++ [word.span], fault⟩
  | unopened (closing : TokenOf .closeParen) {rest : List Token} :
      Blames α endSpan ⟨[], .continuation⟩ (closing.val :: rest)
        ⟨[closing.val.span], .unclosedParenthesis false⟩
  | leftOver {word : Token} {rest : List Token} :
      word.kind ≠ .closeParen →
      Blames α endSpan ⟨[], .continuation⟩ (word :: rest)
        ⟨[word.span.through endSpan], .expectedEnd⟩

/-- A scan reads words up to where the error is. -/
def Scan.FailsOn (α : Type) [Numeral α] (endSpan : Span) (scan : Scan) (words : List Token)
    (error : ParseError) : Prop :=
  ∃ before rest last, words = before ++ rest ∧ scan.run before = some last ∧
    last.Blames α endSpan rest error

/-- A scan fails on words, and the operations completed are those that they close before. -/
def Scan.FailsCompleting (α : Type) [Numeral α] (endSpan : Span) (scan : Scan)
    (words : List Token) (error : ParseError) (completed : List (Located Operator)) : Prop :=
  ∃ before rest last, words = before ++ rest ∧ scan.run before = some last ∧
    last.Blames α endSpan rest error ∧ completed.map Located.span = scan.closes before

namespace Scan

variable {α : Type} [Numeral α] {endSpan : Span} {scan next : Scan} {word : Token}
  {front words rest : List Token} {error : ParseError} {earlier later : List (Located Operator)}

private theorem FailsCompleting.failsOn (fails : scan.FailsCompleting α endSpan words error later) :
    scan.FailsOn α endSpan words error := by
  obtain ⟨before, rest, last, same, run, blames, -⟩ := fails
  exact ⟨before, rest, last, same, run, blames⟩

private theorem Blames.fails (blames : scan.Blames α endSpan words error) :
    scan.FailsCompleting α endSpan words error [] :=
  ⟨[], words, scan, rfl, rfl, blames, rfl⟩

private theorem Blames.of_continuation (spans : List Span) {operation : OpenOperation}
    {outer : List OpenOperation} {fault : ParseFault}
    (stops : step ⟨operation :: outer, .continuation⟩ word = none)
    (misplaced : fault.isMisplaced = true) :
    Blames α endSpan ⟨operation :: outer, .continuation⟩ (word :: rest)
      ⟨spans ++ [word.span], fault⟩ := by
  refine .misplaced spans stops ?_ (fun _ => List.cons_ne_nil _ _) misplaced
  intro operand
  cases operand

private theorem FailsCompleting.append (read : scan.run front = some next)
    (closed : earlier.map Located.span = scan.closes front)
    (fails : next.FailsCompleting α endSpan rest error later) :
    scan.FailsCompleting α endSpan (front ++ rest) error (earlier ++ later) := by
  obtain ⟨before, after, last, rfl, run, blames, laterClosed⟩ := fails
  refine ⟨front ++ before, after, last, (List.append_assoc _ _ _).symm, ?_, blames, ?_⟩
  · rw [run_append_of_run read, run]
  · rw [closes_append read, List.map_append, closed, laterClosed]

private theorem FailsCompleting.cons (taken : Step scan word next)
    (noClosing : word.kind ≠ .closeParen)
    (fails : next.FailsCompleting α endSpan rest error later) :
    scan.FailsCompleting α endSpan (word :: rest) error later := by
  have closed : ([] : List (Located Operator)).map Located.span = scan.closes [word] :=
    (closes_cons taken noClosing []).symm
  exact .append (run_cons taken []) closed fails

end Scan

/-! ## Readers that fail -/

namespace Outcome

variable {β γ : Type}

theorem andThen_eq_failed {outcome : Outcome β} {next : β → List Token → Outcome γ}
    {error : ParseError} {completed : List (Located Operator)}
    (failed : outcome.andThen next = .failed error completed) :
    outcome = .failed error completed ∨ ∃ middle rest earlier later,
      outcome = .done middle rest earlier ∧ next middle rest = .failed error later ∧
        completed = earlier ++ later := by
  cases outcome with
  | failed first firstCompleted =>
      cases failed
      exact .inl rfl
  | done middle rest earlier =>
      rw [andThen_done] at failed
      cases continued : next middle rest with
      | done value left later => rw [continued] at failed; cases failed
      | failed second later =>
          rw [continued] at failed
          cases failed
          exact .inr ⟨middle, rest, earlier, later, rfl, continued, rfl⟩

private theorem map_eq_failed {outcome : Outcome β} {f : β → γ} {error : ParseError}
    {completed : List (Located Operator)} (failed : outcome.map f = .failed error completed) :
    outcome = .failed error completed := by
  cases outcome with
  | done => cases failed
  | failed first firstCompleted =>
      cases failed
      rfl

end Outcome

namespace Words

section Inversion

variable {α β : Type} {endSpan opening lhs : Span} {words : List Token} {error : ParseError}
  {completed : List (Located Operator)}

theorem operatorAfter_eq_failed (failed : operatorAfter opening lhs words = .failed error completed) :
    words = [] ∧ error = ⟨[opening], .unclosedParenthesis true⟩ ∨
      ∃ word rest, words = word :: rest ∧ word.kind.operator? = none ∧
        (word.kind = .symbol ∧ error = ⟨[word.span], .unrecognizedToken word.lexeme⟩ ∨
          word.kind ≠ .symbol ∧ error = ⟨[lhs, word.span], .expectedOperator word.kind⟩) := by
  cases words with
  | nil =>
      cases failed
      exact .inl ⟨rfl, rfl⟩
  | cons word rest =>
      simp only [operatorAfter] at failed
      split at failed
      next => cases failed
      next noOperator =>
        refine .inr ⟨word, rest, rfl, noOperator, ?_⟩
        split at failed
        next symbol =>
          cases failed
          exact .inl ⟨symbol, rfl⟩
        next solid =>
          cases failed
          exact .inr ⟨solid, rfl⟩

theorem closing_eq_failed (failed : Words.closing opening words = .failed error completed) :
    words = [] ∧ error = ⟨[opening], .unclosedParenthesis true⟩ ∨
      ∃ word rest, words = word :: rest ∧ word.kind ≠ .closeParen ∧
        (word.kind = .symbol ∧ error = ⟨[word.span], .unrecognizedToken word.lexeme⟩ ∨
          word.kind ≠ .symbol ∧ error = ⟨[opening, word.span], .expectedCloseParen word.kind⟩) := by
  cases words with
  | nil =>
      cases failed
      exact .inl ⟨rfl, rfl⟩
  | cons word rest =>
      simp only [Words.closing] at failed
      split at failed
      next => cases failed
      next noClosing =>
        refine .inr ⟨word, rest, rfl, noClosing, ?_⟩
        split at failed
        next symbol =>
          cases failed
          exact .inl ⟨symbol, rfl⟩
        next solid =>
          cases failed
          exact .inr ⟨solid, rfl⟩

theorem whole_eq_failed {read : List Token → Outcome β}
    (failed : whole endSpan read words = .failed error completed) :
    words = [] ∧ error = ⟨[endSpan], .emptyExpression⟩ ∨ words ≠ [] ∧
      (read words = .failed error completed ∨
        ∃ value word rest, read words = .done value (word :: rest) completed ∧
          (word.kind = .closeParen ∧ error = ⟨[word.span], .unclosedParenthesis false⟩ ∨
            word.kind ≠ .closeParen ∧ error = ⟨[word.span.through endSpan], .expectedEnd⟩)) := by
  cases words with
  | nil =>
      cases failed
      exact .inl ⟨rfl, rfl⟩
  | cons word rest =>
      refine .inr ⟨List.cons_ne_nil _ _, ?_⟩
      rcases Outcome.andThen_eq_failed failed with
        fails | ⟨value, left, earlier, later, read, failed, rfl⟩
      · exact .inl fails
      · cases left with
        | nil => cases failed
        | cons next left =>
            simp only [finish] at failed
            split at failed
            next kind =>
              cases failed
              rw [List.append_nil]
              exact .inr ⟨value, next, left, read, .inl ⟨kind, rfl⟩⟩
            next other =>
              cases failed
              rw [List.append_nil]
              exact .inr ⟨value, next, left, read, .inr ⟨other, rfl⟩⟩

variable [Numeral α]

theorem numeral_eq_failed {finish : α → Span → Located α}
    (failed : numeral endSpan finish words = .failed error completed) :
    (∃ (word : TokenOf .num) (rest : List Token), words = word.val :: rest ∧
      (Numeral.read? word.val.lexeme : Option α) = none ∧
      error = ⟨[word.val.span], .invalidNumber word.val.lexeme⟩) ∨
    (∀ word ∈ words.head?, word.kind ≠ .num) ∧ error = unexpected endSpan [.num] words := by
  cases words with
  | nil =>
      cases failed
      exact .inr ⟨by simp, rfl⟩
  | cons word rest =>
      simp only [numeral] at failed
      split at failed
      next kind =>
        split at failed
        next => cases failed
        next unread =>
          cases failed
          exact .inl ⟨⟨word, kind⟩, rest, rfl, unread, rfl⟩
      next other =>
        cases failed
        exact .inr ⟨by simpa using other, rfl⟩

variable [Neg α]

theorem numberTree_eq_failed (failed : numberTree (α := α) endSpan words = .failed error completed) :
    ∃ finish : α → Span → Located α,
      (∃ (minus : TokenOf .sub) (rest : List Token), words = minus.val :: rest ∧
        numeral endSpan finish rest = .failed error completed) ∨
      (∀ word ∈ words.head?, word.kind ≠ .sub) ∧
        numeral endSpan finish words = .failed error completed := by
  have numberFailed := Outcome.map_eq_failed failed
  cases words with
  | nil => exact ⟨Located.mk, .inr ⟨by simp, numberFailed⟩⟩
  | cons word rest =>
      simp only [number] at numberFailed
      split at numberFailed
      next minus => exact ⟨_, .inl ⟨⟨word, minus⟩, rest, rfl, numberFailed⟩⟩
      next noMinus => exact ⟨_, .inr ⟨by simpa using noMinus, numberFailed⟩⟩

theorem expressionOf_eq_failed {inside : Span → List Token → Outcome (ParseTree α)}
    (failed : expressionOf endSpan inside words = .failed error completed) :
    (∃ (opening : TokenOf .openParen) (rest : List Token), words = opening.val :: rest ∧
      inside opening.val.span rest = .failed error completed) ∨
    (∃ word rest, words = word :: rest ∧ (word.kind = .num ∨ word.kind = .sub) ∧
      numberTree (α := α) endSpan words = .failed error completed) ∨
    (∀ word ∈ words.head?, word.kind ∉ [.openParen, .name, .num, .sub]) ∧
      error = unexpected endSpan [.openParen, .name, .num] words := by
  cases words with
  | nil =>
      cases failed
      exact .inr (.inr ⟨by simp, rfl⟩)
  | cons word rest =>
      simp only [expressionOf, List.head?_cons, Option.map_some] at failed
      split at failed
      next kind =>
        have isOpening : word.kind = .openParen := Option.some.inj kind
        simp only [operationOf, token, isOpening, if_true, Outcome.andThen_done,
          Outcome.after_nil] at failed
        exact .inl ⟨⟨word, isOpening⟩, rest, rfl, failed⟩
      next kind =>
        have isName : word.kind = .name := Option.some.inj kind
        simp [literal, nameTree, token, isName, Outcome.map] at failed
      next kind =>
        have isNum : word.kind = .num := Option.some.inj kind
        simp only [literal, List.head?_cons, Option.map_some, isNum] at failed
        exact .inr (.inl ⟨word, rest, rfl, .inl isNum, failed⟩)
      next kind =>
        have isSub : word.kind = .sub := Option.some.inj kind
        simp only [literal, List.head?_cons, Option.map_some, isSub] at failed
        exact .inr (.inl ⟨word, rest, rfl, .inr isSub, failed⟩)
      next noOpening noName noNum noSub =>
        cases failed
        refine .inr (.inr ⟨?_, rfl⟩)
        cases kind : word.kind <;> simp_all

end Inversion

/-! ## Leaves complete no operation -/

section Leaves

variable {α : Type} {endSpan opening lhs : Span} {words : List Token} {error : ParseError}
  {completed : List (Located Operator)}

private theorem operatorAfter_completed
    (failed : operatorAfter opening lhs words = .failed error completed) : completed = [] := by
  cases words with
  | nil => cases failed; rfl
  | cons word rest =>
      simp only [operatorAfter] at failed
      split at failed
      · cases failed
      · split at failed <;> cases failed <;> rfl

private theorem closing_completed (failed : Words.closing opening words = .failed error completed) :
    completed = [] := by
  cases words with
  | nil => cases failed; rfl
  | cons word rest =>
      simp only [Words.closing] at failed
      split at failed
      · cases failed
      · split at failed <;> cases failed <;> rfl

variable [Numeral α]

private theorem numeral_completed {finish : α → Span → Located α}
    (failed : numeral endSpan finish words = .failed error completed) : completed = [] := by
  cases words with
  | nil => cases failed; rfl
  | cons word rest =>
      simp only [numeral] at failed
      split at failed
      · split at failed <;> cases failed; rfl
      · cases failed; rfl

variable [Neg α]

private theorem expressionOf_refused {inside : Span → List Token → Outcome (ParseTree α)}
    (other : ∀ word ∈ words.head?, word.kind ∉ [.openParen, .name, .num, .sub]) :
    expressionOf endSpan inside words = fail endSpan [.openParen, .name, .num] words := by
  cases words with
  | nil => rfl
  | cons word rest =>
      have refused := other word rfl
      cases kind : word.kind <;> simp_all [expressionOf]

end Leaves

/-! ## Where the readers fail -/

variable {α : Type} [Numeral α] {endSpan : Span} {opened : List OpenOperation}
  {words : List Token} {error : ParseError} {completed : List (Located Operator)}

/-- Words that are none of the expected ones stand, if there are any, where they may not. -/
theorem unexpected_fails {scan : Scan} (expected : List TokenKind)
    (wants : scan.expects ≠ .continuation)
    (stops : ∀ word ∈ words.head?, scan.step word = none ∧
      (scan.expects = .operand → word.kind ≠ .openParen)) :
    scan.FailsCompleting α endSpan words (unexpected endSpan expected words) [] := by
  cases words with
  | nil => exact (Scan.Blames.operandMissing wants).fails
  | cons word rest =>
      obtain ⟨stops, noOpening⟩ := stops word rfl
      have misplaced {fault : ParseFault} (isMisplaced : fault.isMisplaced = true) :
          scan.FailsCompleting α endSpan (word :: rest) ⟨[] ++ [word.span], fault⟩ [] :=
        (Scan.Blames.misplaced [] stops noOpening (fun expects => absurd expects wants)
          isMisplaced).fails
      rw [unexpected]
      split
      · exact misplaced rfl
      · exact misplaced rfl

private theorem numeral_failed {finish : α → Span → Located α}
    (failed : numeral endSpan finish words = .failed error completed) :
    Scan.FailsCompleting α endSpan ⟨opened, .numeral⟩ words error completed := by
  cases numeral_completed failed
  rcases numeral_eq_failed failed with ⟨word, rest, rfl, unread, rfl⟩ | ⟨other, rfl⟩
  · exact (Scan.Blames.unreadable word unread).fails
  · refine unexpected_fails [.num] (by simp) fun word member => ⟨?_, fun expects => ?_⟩
    · simp only [Scan.step, if_neg (other word member)]
    · cases expects

variable [Neg α]

private theorem numberTree_failed {word : Token} {rest : List Token}
    (isNumber : word.kind = .num ∨ word.kind = .sub)
    (failed : numberTree (α := α) endSpan (word :: rest) = .failed error completed) :
    Scan.FailsCompleting α endSpan ⟨opened, .operand⟩ (word :: rest) error completed := by
  obtain ⟨finish, ⟨minus, rest, same, numeralFails⟩ | ⟨noMinus, numeralFails⟩⟩ :=
    numberTree_eq_failed failed
  · have noClosing : minus.val.kind ≠ .closeParen := by simp [minus.property]
    rw [same]
    exact .cons (.minus minus) noClosing (numeral_failed numeralFails)
  · cases numeral_completed numeralFails
    rcases numeral_eq_failed numeralFails with ⟨numeral, rest, same, unread, rfl⟩ | ⟨other, -⟩
    · rw [same]
      exact (Scan.Blames.unreadable numeral unread).fails
    · exact absurd (isNumber.resolve_right (noMinus word rfl)) (other word rfl)

private theorem expressionOf_failed {inside : Span → List Token → Outcome (ParseTree α)}
    (insideFailed : ∀ (opening : TokenOf .openParen) {rest completed error},
      inside opening.val.span rest = .failed error completed →
        Scan.FailsCompleting α endSpan ⟨opened, .operand⟩ (opening.val :: rest) error completed)
    (failed : expressionOf endSpan inside words = .failed error completed) :
    Scan.FailsCompleting α endSpan ⟨opened, .operand⟩ words error completed := by
  rcases expressionOf_eq_failed failed with ⟨opening, rest, rfl, insideFails⟩ |
    ⟨word, rest, rfl, isNumber, numberFails⟩ | ⟨other, -⟩
  · exact insideFailed opening insideFails
  · exact numberTree_failed isNumber numberFails
  · rw [expressionOf_refused other] at failed
    cases failed
    refine unexpected_fails _ (by simp) fun word member => ?_
    have refused := other word member
    cases kind : word.kind <;> simp_all [Scan.step]

omit [Neg α] in
private theorem operatorAfter_failed {opening : Token} {lhs : Span}
    (failed : operatorAfter opening.span lhs words = .failed error completed) :
    Scan.FailsCompleting α endSpan ⟨⟨opening, false⟩ :: opened, .continuation⟩ words error
      completed := by
  cases operatorAfter_completed failed
  rcases operatorAfter_eq_failed failed with ⟨rfl, rfl⟩ | ⟨word, rest, rfl, noOperator, fault⟩
  · exact Scan.Blames.unclosed.fails
  · have stops : Scan.step ⟨⟨opening, false⟩ :: opened, .continuation⟩ word = none := by
      simp [Scan.step, TokenKind.isOperator_eq, noOperator]
    rcases fault with ⟨-, rfl⟩ | ⟨-, rfl⟩
    · exact (Scan.Blames.of_continuation [] stops rfl).fails
    · exact (Scan.Blames.of_continuation [lhs] stops rfl).fails

omit [Neg α] in
private theorem closing_failed {opening : Token}
    (failed : Words.closing opening.span words = .failed error completed) :
    Scan.FailsCompleting α endSpan ⟨⟨opening, true⟩ :: opened, .continuation⟩ words error
      completed := by
  cases closing_completed failed
  rcases closing_eq_failed failed with ⟨rfl, rfl⟩ | ⟨word, rest, rfl, noClosing, fault⟩
  · exact Scan.Blames.unclosed.fails
  · have stops : Scan.step ⟨⟨opening, true⟩ :: opened, .continuation⟩ word = none := by
      simp [Scan.step, noClosing]
    rcases fault with ⟨-, rfl⟩ | ⟨-, rfl⟩
    · exact (Scan.Blames.of_continuation [] stops rfl).fails
    · exact (Scan.Blames.of_continuation [opening.span] stops rfl).fails

omit [Neg α] in
private theorem enclosed_failed {operand : List Token → Outcome (ParseTree α)} {opening : Token}
    (operandDone : ∀ (pastOperator : Bool) {words rest completed} {tree : ParseTree α},
      operand words = .done tree rest completed → ∃ front, words = front ++ rest ∧
        Scan.run ⟨⟨opening, pastOperator⟩ :: opened, .operand⟩ front =
          some ⟨⟨opening, pastOperator⟩ :: opened, .continuation⟩ ∧
        completed.map Located.span =
          Scan.closes ⟨⟨opening, pastOperator⟩ :: opened, .operand⟩ front)
    (operandFailed : ∀ (pastOperator : Bool) {words completed error},
      operand words = .failed error completed →
        Scan.FailsCompleting α endSpan ⟨⟨opening, pastOperator⟩ :: opened, .operand⟩ words error
          completed)
    (failed : enclosed operand opening.span words = .failed error completed) :
    Scan.FailsCompleting α endSpan ⟨⟨opening, false⟩ :: opened, .operand⟩ words error
      completed := by
  rcases Outcome.andThen_eq_failed failed with
    lhsFails | ⟨lhs, lhsRest, _, _, lhsRead, afterLhs, rfl⟩
  · exact operandFailed false lhsFails
  obtain ⟨front, rfl, run, closed⟩ := operandDone false lhsRead
  apply Scan.FailsCompleting.append run closed
  rcases Outcome.andThen_eq_failed afterLhs with
    operatorFails | ⟨operator, operatorRest, _, _, operatorRead, afterOperator, rfl⟩
  · exact operatorAfter_failed operatorFails
  obtain ⟨word, rfl, -⟩ := operatorAfter_eq_done operatorRead
  rw [Words.operatorAfter_cons] at operatorRead
  cases operatorRead
  apply Scan.FailsCompleting.cons (.operator word) word.noParenthesis.2
  rcases Outcome.andThen_eq_failed afterOperator with
    rhsFails | ⟨rhs, rhsRest, _, _, rhsRead, afterRhs, rfl⟩
  · exact operandFailed true rhsFails
  obtain ⟨front, rfl, run, closed⟩ := operandDone true rhsRead
  apply Scan.FailsCompleting.append run closed
  rcases Outcome.andThen_eq_failed afterRhs with
    closingFails | ⟨close, closingRest, _, _, -, afterClosing, -⟩
  · exact closing_failed closingFails
  · cases afterClosing

/-- A derivation that was read completes the operations whose parentheses it closes. -/
theorem completed_eq_closes {levels : Nat} {rest : List Token} {tree : ParseTree α}
    (read : expression endSpan levels words = .done tree rest completed)
    {derivation : Derivation} (reads : derivation.Reads levels words tree rest) (scan : Scan) :
    completed.map Located.span = scan.closes derivation.words := by
  rw [← reads.words_append, Derivation.expression_words reads.tree?_eq reads.nesting_le] at read
  cases read
  exact (Derivation.map_pairRegion reads.tree?_eq _).symm

private theorem inside_failed {levels : Nat} (room : opened.length + levels = nestingLimit)
    (opening : TokenOf .openParen)
    (failed : inside (α := α) endSpan levels opening.val.span words = .failed error completed) :
    Scan.FailsCompleting α endSpan ⟨opened, .operand⟩ (opening.val :: words) error
      completed := by
  -- Each parenthesis takes one of the levels and is one more that is open.
  induction levels generalizing opened opening words completed error with
  | zero =>
      cases failed
      exact (Scan.Blames.tooDeep opening room).fails
  | succ levels ih =>
      have roomInside (pastOperator : Bool) :
          (OpenOperation.mk opening.val pastOperator :: opened).length + levels = nestingLimit := by
        rw [List.length_cons]
        omega
      have inside : opened.length < nestingLimit := by omega
      have noClosing : opening.val.kind ≠ .closeParen := by simp [opening.property]
      refine .cons (.opening opening inside) noClosing (enclosed_failed ?done ?failed failed)
      case done =>
        intro pastOperator words rest completed tree read
        obtain ⟨derivation, reads⟩ := expression_eq_done read
        refine ⟨derivation.words, reads.words_append.symm, derivation.run_words ?_,
          completed_eq_closes read reads _⟩
        have fits := reads.nesting_le
        have space := roomInside pastOperator
        omega
      case failed =>
        intro pastOperator words completed error operandFails
        exact expressionOf_failed (fun inner _ _ _ => ih (roomInside pastOperator) inner)
          operandFails

/-- A reader of expressions fails on the first word that may not stand where it does. -/
theorem expression_failed {levels : Nat} (room : opened.length + levels = nestingLimit)
    (failed : expression (α := α) endSpan levels words = .failed error completed) :
    Scan.FailsCompleting α endSpan ⟨opened, .operand⟩ words error completed :=
  expressionOf_failed (fun opening _ _ _ => inside_failed room opening) failed

theorem whole_fails
    (failed : whole endSpan (expression (α := α) endSpan nestingLimit) words =
      .failed error completed) :
    words = [] ∧ error = ⟨[endSpan], .emptyExpression⟩ ∧ completed = [] ∨
      words ≠ [] ∧ Scan.start.FailsCompleting α endSpan words error completed := by
  rcases whole_eq_failed failed with empty | ⟨nonempty, fails | ⟨tree, word, rest, read, fault⟩⟩
  · obtain ⟨rfl, rfl⟩ := empty
    cases failed
    exact .inl ⟨rfl, rfl, rfl⟩
  · exact .inr ⟨nonempty, expression_failed (Nat.zero_add _) fails⟩
  · obtain ⟨derivation, reads⟩ := expression_eq_done read
    have run : Scan.start.run derivation.words = some ⟨[], .continuation⟩ :=
      derivation.run_words reads.nesting_le
    have closed := completed_eq_closes read reads .start
    refine .inr ⟨nonempty, derivation.words, word :: rest, _, reads.words_append.symm, run, ?_,
      closed⟩
    rcases fault with ⟨kind, rfl⟩ | ⟨other, rfl⟩
    · exact .unopened ⟨word, kind⟩
    · exact .leftOver other

theorem whole_failed
    (failed : whole endSpan (expression (α := α) endSpan nestingLimit) words =
      .failed error completed) :
    words = [] ∧ error = ⟨[endSpan], .emptyExpression⟩ ∨
      words ≠ [] ∧ Scan.start.FailsOn α endSpan words error := by
  rcases whole_fails failed with ⟨empty, same, -⟩ | ⟨nonempty, fails⟩
  · exact .inl ⟨empty, same⟩
  · exact .inr ⟨nonempty, fails.failsOn⟩

end Words

end Calculator
