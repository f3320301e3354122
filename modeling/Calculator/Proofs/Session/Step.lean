import Calculator.Proofs.Command.Line
import Calculator.Script

/-!
# One line in a session

What a line does to a session: an assignment that succeeds binds its name, `:clear`
removes all bindings, and every other line, also one that fails, keeps the bindings.
-/

set_option autoImplicit false

namespace Calculator

/-- The commands other than assignments and `:clear`. -/
def Command.keepsBindings : Command → Bool
  | .assign _ _ | .clear => false
  | .eval _ | .simplify _ | .steps _ | .deriv _ _ | .vars | .help => true

variable {α : Type} [Arithmetic α] [Numeral α]

namespace Session

variable {session next : Session α} {command : Command} {output : List String}
  {error : LineError}

theorem read_eq_ok {text : String} {expr : Expr α} :
    read text = .ok expr ↔ Expr.ofText text = .ok expr :=
  mapError_eq_ok

theorem value_eq_ok {text : String} {value : α} :
    session.value text = .ok value ↔
      ∃ expr : Expr α, Expr.ofText text = .ok expr ∧
        expr.evaluate session.context = .ok value := by
  simp only [Session.value, except_bind_eq_ok, read_eq_ok, mapError_eq_ok]

theorem run_assign {expression : String} {value : α}
    (evaluated : session.value expression = .ok value) (name : String) :
    run (.assign name expression) session =
      .ok [bindingText name value] ⟨session.context.insert name value⟩ :=
  ofExcept_bind_eq_ok.mpr ⟨value, evaluated, rfl⟩

theorem run_eval {expression : String} {value : α}
    (evaluated : session.value expression = .ok value) :
    run (.eval expression) session = .ok [Numeral.text value] session :=
  ofExcept_bind_eq_ok.mpr ⟨value, evaluated, rfl⟩

theorem run_eval_error {expression : String} (failed : session.value expression = .error error) :
    run (.eval expression) session = .error error session :=
  ofExcept_bind_eq_error.mpr (.inl ⟨failed, rfl⟩)

/-- All that a command which succeeds can do. -/
theorem run_eq_ok (ran : run command session = .ok output next) :
    (∃ name expression value, command = .assign name expression ∧
      session.value expression = .ok value ∧
        next = ⟨session.context.insert name value⟩) ∨
    command = .clear ∧ next = new ∨
    command.keepsBindings = true ∧ next = session := by
  cases command with
  | assign name expression =>
      obtain ⟨value, evaluated, same⟩ := ofExcept_bind_eq_ok.mp ran
      cases same
      exact .inl ⟨name, expression, value, rfl, evaluated, rfl⟩
  | clear =>
      cases ran
      exact .inr (.inl ⟨rfl, rfl⟩)
  | eval | simplify | steps | deriv =>
      obtain ⟨_, -, same⟩ := ofExcept_bind_eq_ok.mp ran
      cases same
      exact .inr (.inr ⟨rfl, rfl⟩)
  | vars | help =>
      cases ran
      exact .inr (.inr ⟨rfl, rfl⟩)

/-- A command that fails has changed nothing. -/
theorem run_eq_error (failed : run command session = .error error next) : next = session := by
  cases command with
  | eval | assign | simplify | steps | deriv =>
      rcases ofExcept_bind_eq_error.mp failed with ⟨-, same⟩ | ⟨_, -, impossible⟩
      · exact same
      · cases impossible
  | vars | clear | help => cases failed

theorem runLine_eq_ok {line : String} :
    runLine line session = .ok output next ↔
      ∃ command, Command.parse line = .ok command ∧ run command session = .ok output next := by
  simp only [runLine, ofExcept_bind_eq_ok, mapError_eq_ok]

/-- A line that fails has changed nothing. -/
theorem runLine_eq_error {line : String} (failed : runLine line session = .error error next) :
    next = session := by
  rcases ofExcept_bind_eq_error.mp failed with ⟨-, same⟩ | ⟨command, -, failed⟩
  · exact same
  · exact run_eq_error failed

/-- Whether a line succeeds. -/
def accepts (session : Session α) (line : String) : Bool :=
  match runLine line session with
  | .ok _ _ => true
  | .error _ _ => false

theorem accepts_eq_false {line : String} :
    session.accepts line = false ↔ ∃ error next, runLine line session = .error error next := by
  rw [accepts]
  cases runLine line session with
  | ok | error => simp

end Session

namespace Script

variable {session next : Session α}

theorem runLine_of_ok {line : String} {output : List String}
    (ran : Session.runLine line session = .ok output next) :
    runLine session line = (output.map .output, next) := by
  rw [runLine, ran]

/-- The session after a line that fails is the one before it. -/
theorem runLine_of_error {line : String} {error : LineError}
    (failed : Session.runLine line session = .error error next) :
    runLine session line = ([.failure (error.diagnostic (Command.sourceOf line))], session) := by
  rw [runLine, failed, Session.runLine_eq_error failed]

theorem runLines_append (session : Session α) (first second : List String) :
    runLines session (first ++ second) =
      ((runLines session first).1 ++ (runLines (runLines session first).2 second).1,
        (runLines (runLines session first).2 second).2) := by
  induction first generalizing session with
  | nil => rfl
  | cons line rest ih => simp only [List.cons_append, runLines, ih, List.append_assoc]

end Script

end Calculator
