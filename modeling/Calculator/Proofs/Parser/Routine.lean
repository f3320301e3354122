import Calculator.Parser.Program
import Calculator.Proofs.Parser.Agreement

/-!
# Routines

Whoever holds a parser moves it with a few operations alone, and decides by their answers
and failures how to go on. Such a routine may run others: as they are, with a way back, or
inside a parenthesis. No routine loses a token, goes back behind its start or keeps a
parenthesis open.
-/

set_option autoImplicit false

namespace Calculator

namespace Parser

mutual

/-- What can be done with a parser. -/
inductive Operation : Type → Type → Type 1 where
  | peek : Operation ParseError (Option TokenKind)
  | next : Operation ParseError Token
  /-- Looks at the parser without moving it. -/
  | inspect {ε β : Type} (look : Parser → β) : Operation ε β
  | unexpected (expected : List TokenKind) : Operation ParseError ParseError
  | complete (operator : Operator) (span : Span) : Operation ParseError Unit
  | call {ε β : Type} (body : Routine ε β) : Operation ε β
  | attempt {ε β : Type} (body : Routine ε β) : Operation ε β
  | nested {ε β : Type} (refusal : ParseError → ε) (opening : Span) (body : Routine ε β) :
      Operation ε β

/-- A finite program of operations that fails with an `ε` or gives a `β`. -/
inductive Routine : Type → Type → Type 1 where
  | done {ε β : Type} (outcome : Except ε β) : Routine ε β
  | perform {ε β ε' β' : Type} (operation : Operation ε' β')
      (next : Except ε' β' → Routine ε β) : Routine ε β

end

def outcome {ε β : Type} : EStateM.Result ε Parser β → Except ε β
  | .ok value _ => .ok value
  | .error failure _ => .error failure

/-- The parser that an action ended with. -/
def ending {ε β : Type} : EStateM.Result ε Parser β → Parser
  | .ok _ after => after
  | .error _ after => after

mutual

def Operation.action : {ε β : Type} → Operation ε β → ParseAction ε β
  | _, _, .peek => Parser.peek
  | _, _, .next => Parser.next
  | _, _, .inspect look => fun parser => .ok (look parser) parser
  | _, _, .unexpected expected => Parser.unexpected expected
  | _, _, .complete operator span => Parser.complete operator span
  | _, _, .call body => body.action
  | _, _, .attempt body => Parser.attempt body.action
  | _, _, .nested refusal opening body => Parser.nestedOr refusal opening body.action

def Routine.action : {ε β : Type} → Routine ε β → ParseAction ε β
  | _, _, .done (.ok value) => pure value
  | _, _, .done (.error failure) => throw failure
  | _, _, .perform operation next => fun parser =>
      match operation.action parser with
      | .ok value after => (next (.ok value)).action after
      | .error failure after => (next (.error failure)).action after

end

namespace Routine

/-- A run of a routine comes by a parser, be it in the middle of an operation that runs
another routine. Whether an attempt or a parenthesis runs its body, and from which parser,
is asked of the action itself: `get` in place of the body gives that parser. -/
inductive Reaches : {ε β : Type} → Routine ε β → Parser → Parser → Prop where
  | here {ε β : Type} {routine : Routine ε β} {parser : Parser} :
      Reaches routine parser parser
  | later {ε β ε' β' : Type} {operation : Operation ε' β'}
      {next : Except ε' β' → Routine ε β} {start point : Parser} :
      Reaches (next (outcome (operation.action start))) (ending (operation.action start)) point →
      Reaches (.perform operation next) start point
  | inCall {ε β ε' β' : Type} {body : Routine ε' β'} {next : Except ε' β' → Routine ε β}
      {start point : Parser} :
      Reaches body start point → Reaches (.perform (.call body) next) start point
  | inAttempt {ε β ε' β' : Type} {body : Routine ε' β'} {next : Except ε' β' → Routine ε β}
      {start inside after point : Parser} :
      Parser.attempt (get : ParseAction ε' Parser) start = .ok inside after →
      Reaches body inside point → Reaches (.perform (.attempt body) next) start point
  | inNested {ε β ε' β' : Type} {refusal : ParseError → ε'} {opening : Span}
      {body : Routine ε' β'} {next : Except ε' β' → Routine ε β}
      {start inside after point : Parser} :
      Parser.nestedOr refusal opening get start = .ok inside after →
      Reaches body inside point → Reaches (.perform (.nested refusal opening body) next) start point

end Routine

/-! ## Moving on -/

/-- The place has moved on in the same tokens, inside of the same parentheses. -/
structure Onward (start after : Parser) : Prop where
  tokens : after.tokens = start.tokens
  depth : after.depth = start.depth
  cursor : start.cursor ≤ after.cursor

theorem Onward.refl (parser : Parser) : Onward parser parser := ⟨rfl, rfl, Nat.le_refl _⟩

theorem Onward.trans {start middle last : Parser} (first : Onward start middle)
    (second : Onward middle last) : Onward start last where
  tokens := second.tokens.trans first.tokens
  depth := second.depth.trans first.depth
  cursor := Nat.le_trans first.cursor second.cursor

theorem Onward.skipWhitespace (parser : Parser) : Onward parser parser.skipWhitespace where
  tokens := (kept_skipWhitespace parser).tokens
  depth := rfl
  cursor := by simp [Parser.skipWhitespace, Parser.cursor]

private theorem next_onward (parser : Parser) : Onward parser (ending (next parser)) := by
  have skipped := Onward.skipWhitespace parser
  unfold next
  cases found : parser.skipWhitespace.ahead with
  | nil =>
      simp only [found]
      exact skipped
  | cons token rest =>
      have passed : Onward parser.skipWhitespace { parser.skipWhitespace with
          passed := token :: parser.skipWhitespace.passed, ahead := rest } :=
        ⟨by simp [tokens, found], rfl, by simp [cursor]⟩
      simp only [found]
      split <;> exact skipped.trans passed

private theorem unexpected_onward (expected : List TokenKind) (parser : Parser) :
    Onward parser (ending (unexpected expected parser)) := by
  have skipped := Onward.skipWhitespace parser
  unfold unexpected
  cases found : parser.skipWhitespace.ahead with
  | nil =>
      simp only [found]
      exact skipped
  | cons token rest =>
      simp only [found]
      split <;> exact skipped

section Scopes

variable {ε β : Type} {action : ParseAction ε β} {start : Parser}

theorem attempt_error {failure : ε} {after : Parser}
    (failed : attempt action start = .error failure after) :
    after.passed = start.passed ∧ after.ahead = start.ahead := by
  unfold attempt at failed
  split at failed
  · cases failed
  · cases failed
    exact ⟨rfl, rfl⟩

private theorem attempt_onward (onward : Onward start (ending (action start))) :
    Onward start (ending (attempt action start)) := by
  unfold attempt
  cases ran : action start with
  | ok value after =>
      rw [ran] at onward
      exact onward
  | error failure after =>
      rw [ran] at onward
      exact ⟨rfl, onward.depth, Nat.le_refl _⟩

private theorem attempt_inside {inside after : Parser}
    (begun : attempt (get : ParseAction ε Parser) start = .ok inside after) : inside = start := by
  cases begun
  rfl

/-- The limit of nesting is the bound of `nestedOr`: what runs within it starts one
parenthesis deeper at the same place. -/
theorem nestedOr_inside {refusal : ParseError → ε} {opening : Span} {inside after : Parser}
    (begun : nestedOr refusal opening get start = .ok inside after) :
    inside.tokens = start.tokens ∧ inside.cursor = start.cursor ∧
      inside.depth = start.depth + 1 ∧ inside.depth ≤ nestingLimit := by
  unfold nestedOr at begun
  split at begun
  case isTrue room =>
    cases begun
    exact ⟨rfl, rfl, rfl, room⟩
  case isFalse => cases begun

private theorem nestedOr_onward (refusal : ParseError → ε) (opening : Span)
    (onward : Onward { start with depth := start.depth + 1 }
      (ending (action { start with depth := start.depth + 1 }))) :
    Onward start (ending (nestedOr refusal opening action start)) := by
  unfold nestedOr
  split
  case isFalse => exact .refl start
  case isTrue =>
    cases ran : action { start with depth := start.depth + 1 } with
    | ok value after | error failure after =>
        rw [ran] at onward
        exact ⟨onward.tokens, Nat.sub_eq_of_eq_add onward.depth, onward.cursor⟩

end Scopes

-- By one recursion on both: what an operation runs is a part of it, and so is what follows
-- an operation.
mutual

theorem Operation.onward : ∀ {ε β : Type} (operation : Operation ε β) (start : Parser),
    Onward start (ending (operation.action start))
  | _, _, .peek, start => Onward.skipWhitespace start
  | _, _, .next, start => next_onward start
  | _, _, .inspect _, start => .refl start
  | _, _, .unexpected expected, start => unexpected_onward expected start
  | _, _, .complete _ _, _ => ⟨rfl, rfl, Nat.le_refl _⟩
  | _, _, .call body, _ => body.onward _
  | _, _, .attempt body, _ => attempt_onward (body.onward _)
  | _, _, .nested refusal opening body, _ => nestedOr_onward refusal opening (body.onward _)

private theorem Routine.onward : ∀ {ε β : Type} (routine : Routine ε β) (start : Parser),
    Onward start (ending (routine.action start))
  | _, _, .done (.ok _), start => .refl start
  | _, _, .done (.error _), start => .refl start
  | _, _, .perform operation next, start => by
      have moved := operation.onward start
      unfold Routine.action
      cases ran : operation.action start with
      | ok value after =>
          rw [ran] at moved
          exact moved.trans ((next (.ok value)).onward after)
      | error failure after =>
          rw [ran] at moved
          exact moved.trans ((next (.error failure)).onward after)

end

namespace Routine

theorem reaches_ending : ∀ {ε β : Type} (routine : Routine ε β) (start : Parser),
    routine.Reaches start (ending (routine.action start))
  | _, _, .done (.ok _), _ => .here
  | _, _, .done (.error _), _ => .here
  | _, _, .perform operation next, start => by
      refine .later ?_
      unfold action
      cases operation.action start with
      | ok value after => exact (next (.ok value)).reaches_ending after
      | error failure after => exact (next (.error failure)).reaches_ending after

/-- Whatever a run comes by has the tokens of its start, no earlier place and no more
parentheses around it than the limit allows. -/
theorem Reaches.within {ε β : Type} {routine : Routine ε β} {start point : Parser}
    (reached : routine.Reaches start point) (shallow : start.depth ≤ nestingLimit) :
    point.tokens = start.tokens ∧ start.cursor ≤ point.cursor ∧ point.depth ≤ nestingLimit := by
  induction reached with
  | here => exact ⟨rfl, Nat.le_refl _, shallow⟩
  | @later _ _ _ _ operation _ start _ _ ih =>
      have moved := operation.onward start
      obtain ⟨tokens, cursor, depth⟩ := ih (moved.depth ▸ shallow)
      exact ⟨tokens.trans moved.tokens, Nat.le_trans moved.cursor cursor, depth⟩
  | inCall _ ih => exact ih shallow
  | inAttempt begun _ ih => exact attempt_inside begun ▸ ih (attempt_inside begun ▸ shallow)
  | inNested begun _ ih =>
      obtain ⟨sameTokens, sameCursor, -, room⟩ := nestedOr_inside begun
      obtain ⟨tokens, cursor, depth⟩ := ih room
      exact ⟨tokens.trans sameTokens, sameCursor ▸ cursor, depth⟩

/-- Goes on with another routine where one succeeds. -/
def andThen {ε β γ : Type} (goOn : β → Routine ε γ) : Routine ε β → Routine ε γ
  | .done (.ok value) => goOn value
  | .done (.error failure) => .done (.error failure)
  | .perform operation next => .perform operation fun answer => (next answer).andThen goOn

private theorem action_andThen : ∀ {ε β γ : Type} (routine : Routine ε β) (goOn : β → Routine ε γ),
    (routine.andThen goOn).action = (routine.action >>= fun value => (goOn value).action)
  | _, _, _, .done (.ok _), _ => rfl
  | _, _, _, .done (.error _), _ => rfl
  | _, _, _, .perform operation next, goOn => by
      funext start
      change _ = EStateM.bind _ _ start
      unfold EStateM.bind
      simp only [andThen, action]
      cases operation.action start with
      | ok value after | error failure after =>
          simp only [action_andThen]
          rfl

end Routine

/-- An action that a routine performs. -/
def IsRoutine {ε β : Type} (action : ParseAction ε β) : Prop :=
  ∃ routine : Routine ε β, routine.action = action

namespace IsRoutine

variable {ε β γ : Type} {action : ParseAction ε β}

theorem onward (routine : IsRoutine action) (start : Parser) :
    Onward start (ending (action start)) := by
  obtain ⟨routine, rfl⟩ := routine
  exact routine.onward start

theorem pure (value : β) : IsRoutine (Pure.pure value : ParseAction ε β) := ⟨.done (.ok value), rfl⟩

theorem throw (failure : ε) : IsRoutine (MonadExcept.throw failure : ParseAction ε β) :=
  ⟨.done (.error failure), rfl⟩

/-- A single operation is a routine. -/
theorem perform (operation : Operation ε β) : IsRoutine operation.action := by
  refine ⟨.perform operation .done, ?_⟩
  funext start
  unfold Routine.action
  cases operation.action start <;> rfl

theorem inspect (look : Parser → β) :
    IsRoutine (fun parser => .ok (look parser) parser : ParseAction ε β) :=
  perform (.inspect look)

theorem bind {goOn : β → ParseAction ε γ} (first : IsRoutine action)
    (second : ∀ value, IsRoutine (goOn value)) : IsRoutine (action >>= goOn) := by
  obtain ⟨routine, rfl⟩ := first
  refine ⟨routine.andThen fun value => (second value).choose, ?_⟩
  simp only [Routine.action_andThen, (second _).choose_spec]

theorem map (f : β → γ) (routine : IsRoutine action) : IsRoutine (f <$> action) :=
  routine.bind fun value => pure (f value)

theorem attempt (routine : IsRoutine action) : IsRoutine (Parser.attempt action) := by
  obtain ⟨body, rfl⟩ := routine
  exact perform (.attempt body)

theorem nestedOr (refusal : ParseError → ε) (opening : Span) (routine : IsRoutine action) :
    IsRoutine (Parser.nestedOr refusal opening action) := by
  obtain ⟨body, rfl⟩ := routine
  exact perform (.nested refusal opening body)

/-- Whoever calls a routine can go on from its failure, too. -/
theorem answered {ε' γ : Type} {action' : ParseAction ε' γ} (answer : Except ε β → γ)
    (same : ∀ start,
      action' start = .ok (answer (outcome (action start))) (ending (action start)))
    (routine : IsRoutine action) : IsRoutine action' := by
  obtain ⟨body, rfl⟩ := routine
  refine ⟨.perform (.call body) fun given => .done (.ok (answer given)), ?_⟩
  funext start
  rw [same]
  simp only [Routine.action, Operation.action]
  cases body.action start <;> rfl

end IsRoutine

end Parser

end Calculator
