import Calculator.Number.Double
import Calculator.Proofs.Parser.GrammarRoutines

/-!
# Where a reading ends

Whatever the grammar reads ends with a token, and that token is the last one passed. So a
parser that has read a phrase stands right behind it.
-/

set_option autoImplicit false

namespace Calculator

namespace Parser

/-- The token right before the place ends at an offset. -/
def StandsBehind (parser : Parser) (offset : Nat) : Prop :=
  ∃ last, parser.previous? = some last ∧ last.span.stop = offset

/-- Where an action succeeds it has passed a token, the last of which ends where its value
does. -/
def EndsBehind {β : Type} (stop : β → Nat) (action : ParserM β) : Prop :=
  ∀ start value after, action start = .ok value after →
    start.cursor < after.cursor ∧ after.StandsBehind (stop value)

namespace EndsBehind

variable {β γ : Type} {stop : β → Nat}

private theorem throw (error : ParseError) : EndsBehind stop (MonadExcept.throw error) := by
  intro _ _ _ ran
  cases ran

private theorem after {first : ParserM γ} {goOn : γ → ParserM β} (routine : IsRoutine first)
    (ends : ∀ value, EndsBehind stop (goOn value)) : EndsBehind stop (first >>= goOn) := by
  intro start value after ran
  obtain ⟨found, middle, begun, continued⟩ := bind_eq_ok.mp ran
  obtain ⟨further, behind⟩ := ends found middle value after continued
  have onward := routine.onward start
  rw [begun] at onward
  exact ⟨Nat.lt_of_le_of_lt onward.cursor further, behind⟩

/-- What follows an action may leave the parser where it is. -/
theorem staying {action : ParserM γ} {goOn : γ → ParserM β} {stop' : γ → Nat}
    (ends : EndsBehind stop' action)
    (stays : ∀ found place value after, goOn found place = .ok value after →
      after.passed = place.passed ∧ stop value = stop' found) :
    EndsBehind stop (action >>= goOn) := by
  intro start value after ran
  obtain ⟨found, middle, begun, continued⟩ := bind_eq_ok.mp ran
  obtain ⟨further, last, previous, stops⟩ := ends start found middle begun
  obtain ⟨same, stopsSame⟩ := stays found middle value after continued
  unfold cursor at further ⊢
  rw [same]
  exact ⟨further, last, by rwa [previous?, same], stops.trans stopsSame.symm⟩

private theorem map {action : ParserM γ} {stop' : γ → Nat} (ends : EndsBehind stop' action)
    (f : γ → β) (same : ∀ found, stop (f found) = stop' found) : EndsBehind stop (f <$> action) :=
  ends.staying fun found place value after ran => by
    cases ran
    exact ⟨rfl, same found⟩

private theorem attempt {action : ParserM β} (ends : EndsBehind stop action) :
    EndsBehind stop (attempt action) := by
  intro start value after ran
  unfold Parser.attempt at ran
  split at ran
  case h_1 value' after' found =>
    cases ran
    exact ends start _ _ found
  case h_2 => cases ran

private theorem nested {action : ParserM β} (opening : Span) (ends : EndsBehind stop action) :
    EndsBehind stop (nested opening action) := by
  intro start value after ran
  unfold Parser.nested nestedOr at ran
  split at ran
  case isFalse => cases ran
  case isTrue =>
    split at ran
    case h_1 value' deeper found =>
      cases ran
      have behind := ends _ value deeper found
      exact behind
    case h_2 => cases ran

end EndsBehind

private theorem next_endsBehind : EndsBehind (·.span.stop) next := by
  intro start found after ran
  have skipped := (Onward.skipWhitespace start).cursor
  unfold next at ran
  dsimp only at ran
  split at ran
  case h_1 => cases ran
  case h_2 token rest ahead =>
    split at ran
    · cases ran
    · cases ran
      exact ⟨Nat.lt_succ_of_le skipped, _, rfl, rfl⟩

private theorem failUnexpected_endsBehind {β : Type} (stop : β → Nat) (expected : List TokenKind) :
    EndsBehind stop (failUnexpected expected) :=
  .after (.perform (.unexpected expected)) .throw

private theorem token_endsBehind (kind : TokenKind) : EndsBehind (·.span.stop) (token kind) := by
  refine next_endsBehind.staying fun found place value after ran => ?_
  split at ran
  · cases ran
    exact ⟨rfl, rfl⟩
  · cases ran

private theorem operator_endsBehind : EndsBehind (·.span.stop) operator := by
  refine next_endsBehind.staying fun found place value after ran => ?_
  cases read : found.kind.operator? with
  | none =>
      rw [read] at ran
      cases ran
  | some operator =>
      rw [read] at ran
      cases ran
      exact ⟨rfl, rfl⟩

private theorem closing_endsBehind (opening : Span) : EndsBehind Span.stop (closing opening) := by
  refine .after peek_isRoutine fun kind? => ?_
  split
  · exact .throw _
  · exact (token_endsBehind .closeParen).attempt.map _ fun _ => rfl
  · exact failUnexpected_endsBehind _ _
  · exact .after get_isRoutine fun _ => .throw _

section Trees

variable {α : Type}

private theorem nameTree_endsBehind : EndsBehind (·.span.stop) (nameTree (α := α)) :=
  (token_endsBehind .name).attempt.map _ fun _ => rfl

private theorem operationOf_endsBehind {operand : ParserM (ParseTree α)}
    (routine : IsRoutine operand) : EndsBehind (·.span.stop) (operationOf operand) := by
  -- The closing parenthesis decides; before it the parser need only not go back.
  refine .after (token_isRoutine .openParen).attempt fun opening => .nested opening.span ?_
  refine .after routine.attempt fun lhs => ?_
  refine .after (operatorAfter_isRoutine opening.span lhs) fun operator => ?_
  refine .after routine.attempt fun rhs => ?_
  refine (closing_endsBehind opening.span).staying fun closing place tree after ran => ?_
  cases ran
  exact ⟨rfl, rfl⟩

private theorem numeralValue_stays [Numeral α] {β : Type} {f : α → β} {numeral : Located String}
    {place after : Parser} {value : β}
    (ran : (numeralValue numeral >>= fun read => pure (f read)) place = .ok value after) :
    after = place ∧ ∃ read, value = f read := by
  obtain ⟨number, middle, found, given⟩ := bind_eq_ok.mp ran
  cases given
  unfold numeralValue at found
  cases read : Numeral.read? (α := α) numeral.value with
  | none =>
      rw [read] at found
      cases found
  | some value =>
      rw [read] at found
      cases found
      exact ⟨rfl, number, rfl⟩

variable [Numeral α] [Neg α]

private theorem numberTree_endsBehind : EndsBehind (·.span.stop) (numberTree (α := α)) := by
  have numeral := (token_endsBehind .num).attempt
  have number : EndsBehind (·.span.stop) (number (α := α)) := by
    refine .after (optional_isRoutine (token_isRoutine .sub)) fun minus? => ?_
    split
    all_goals
      refine numeral.staying fun found place value after ran => ?_
      obtain ⟨rfl, read, rfl⟩ := numeralValue_stays ran
      exact ⟨rfl, rfl⟩
  exact number.map _ fun _ => rfl

private theorem literal_endsBehind : EndsBehind (·.span.stop) (literal (α := α)) := by
  refine .after peek_isRoutine fun kind? => ?_
  split
  · exact nameTree_endsBehind.attempt
  · exact numberTree_endsBehind.attempt
  · exact numberTree_endsBehind.attempt
  · exact failUnexpected_endsBehind _ _

private theorem expressionOf_endsBehind {operation : ParserM (ParseTree α)}
    (ends : EndsBehind (·.span.stop) operation) :
    EndsBehind (·.span.stop) (expressionOf operation) := by
  refine .after peek_isRoutine fun kind? => ?_
  split
  · exact ends.attempt
  · exact literal_endsBehind.attempt
  · exact literal_endsBehind.attempt
  · exact literal_endsBehind.attempt
  · exact failUnexpected_endsBehind _ _

private theorem expressionWithin_endsBehind (levels : Nat) :
    EndsBehind (·.span.stop) (expressionWithin (α := α) levels) := by
  cases levels with
  | zero =>
      exact expressionOf_endsBehind (operationOf_endsBehind (failUnexpected_isRoutine []))
  | succ levels =>
      exact expressionOf_endsBehind (operationOf_endsBehind (expressionWithin_isRoutine levels))

end Trees

private theorem read_endsBehind {α : Type} [Numeral α] [Neg α] (production : Production) :
    EndsBehind (·.span.stop) (production.read (α := α)) := by
  have tree {action : ParserM (ParseTree α)} (ends : EndsBehind (·.span.stop) action) :
      EndsBehind (·.span.stop) (Phrase.tree <$> action) :=
    ends.map _ fun _ => rfl
  cases production with
  | expression => exact tree (.after get_isRoutine fun _ => expressionWithin_endsBehind _)
  | operation =>
      exact tree (.after get_isRoutine fun _ =>
        operationOf_endsBehind (expressionWithin_isRoutine _))
  | literal => exact tree literal_endsBehind
  | number => exact tree numberTree_endsBehind
  | name => exact tree nameTree_endsBehind
  | operator => exact operator_endsBehind.map _ fun _ => rfl

/-- Each parser that a run comes by stands within the tokens of the source and within the
limit of nesting. Whatever is done with it then leaves the tokens and the parentheses around
it alone and does not move it back; a failed attempt does not move it at all. What the
grammar describes can be attempted or read to the end of the source there, and an attempt
that succeeds moves it on, to right behind the phrase. -/
theorem routine_runs_in_bounds {α : Type} [Numeral α] [Neg α] {ε β : Type} {source : String}
    {routine : Routine ε β} {point : Parser} (reached : routine.Reaches (ofSource source) point) :
    point.tokens = tokenize source ∧ point.cursor ≤ (tokenize source).length ∧
      point.depth ≤ 128 ∧
      (∀ {ε' β' : Type} (operation : Operation ε' β'),
        Onward point (ending (operation.action point))) ∧
      (∀ {ε' β' : Type} (body : Routine ε' β') (failure : ε') (after : Parser),
        (Operation.attempt body).action point = .error failure after →
          after.cursor = point.cursor) ∧
      ∀ production : Production,
        (∃ body : Routine ParseError (Phrase α), body.action = production.read) ∧
        (∃ body : Routine ParseError (Phrase α), body.action = whole production.read) ∧
        ∀ (body : Routine ParseError (Phrase α)) (phrase : Phrase α) (after : Parser),
          body.action = production.read → (Operation.attempt body).action point = .ok phrase after →
            point.cursor < after.cursor ∧ after.StandsBehind phrase.span.stop := by
  obtain ⟨tokens, -, depth⟩ := reached.within (Nat.zero_le _)
  have cut : point.tokens = tokenize source := tokens
  have within : point.cursor ≤ (tokenize source).length := by
    rw [← cut, Parser.tokens, List.length_append, List.length_reverse]
    exact Nat.le_add_right _ _
  refine ⟨cut, within, depth, fun operation => operation.onward point, ?_, fun production =>
    ⟨read_isRoutine production, whole_isRoutine (read_isRoutine production), ?_⟩⟩
  · intro _ _ body failure after failed
    rw [cursor, (attempt_error failed).1]
    rfl
  · intro body phrase after same succeeded
    have ends := (read_endsBehind (α := α) production).attempt
    rw [← same] at ends
    exact ends point phrase after succeeded

/-- The source `(x` is read up to the name, inside the parenthesis that stands before it. -/
theorem routine_runs_in_bounds_name :
    ∃ (body : Routine ParseError (Phrase Float)) (point after : Parser),
      (Routine.perform .next fun _ => .perform (.nested id ⟨0, 1⟩ body) .done).Reaches
        (ofSource "(x") point ∧
      point.depth = 1 ∧ point.cursor = 1 ∧
      (Operation.attempt body).action point = .ok (.tree (.name "x" ⟨1, 2⟩)) after ∧
      point.cursor < after.cursor ∧ after.StandsBehind 2 := by
  have source : ofSource "(x" =
      ⟨[], [⟨.openParen, "(", ⟨0, 1⟩⟩, ⟨.name, "x", ⟨1, 2⟩⟩], 0, []⟩ := by decide +kernel
  obtain ⟨body, same⟩ := read_isRoutine (α := Float) .name
  let point : Parser := ⟨[⟨.openParen, "(", ⟨0, 1⟩⟩], [⟨.name, "x", ⟨1, 2⟩⟩], 1, []⟩
  let after : Parser := ⟨⟨.name, "x", ⟨1, 2⟩⟩ :: point.passed, [], 1, []⟩
  have reached : (Routine.perform .next fun _ => .perform (.nested id ⟨0, 1⟩ body) .done).Reaches
      (ofSource "(x") point := by
    rw [source]
    exact .later (.inNested rfl .here)
  have read : (Operation.attempt body).action point = .ok (.tree (.name "x" ⟨1, 2⟩)) after := by
    unfold Operation.action
    rw [same]
    rfl
  obtain ⟨-, -, -, -, -, readings⟩ := routine_runs_in_bounds (α := Float) reached
  obtain ⟨-, -, succeeding⟩ := readings .name
  exact ⟨body, point, after, reached, rfl, rfl, read, succeeding body _ after same read⟩

end Parser

end Calculator
