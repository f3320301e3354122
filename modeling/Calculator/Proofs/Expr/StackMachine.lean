import Calculator.Evaluation
import Calculator.Proofs.Expr.PostOrder

/-!
# Evaluation on a stack

A machine that is given the nodes of an expression in post-order keeps the values of the
operands that wait for their operator on a stack. It comes to the value of the expression,
or stops with its error at the first node that fails.
-/

set_option autoImplicit false

namespace Calculator

namespace StackMachine

/-- Why the machine stops. -/
inductive Fault where
  /-- There are fewer than two values for an operator. -/
  | underflow
  | failed (error : EvalError)
deriving DecidableEq, Repr

variable {α : Type} [Arithmetic α]

/-- The machine after one more node. The value on top of the stack is the right operand of an
operator, the one below it the left operand. -/
def step (context : Context α) : List α → Expr α → Except Fault (List α)
  | stack, .num value => .ok (value :: stack)
  | stack, .var name =>
      match context.find? name with
      | some value => .ok (value :: stack)
      | none => .error (.failed (.unboundVariable name (context.similarNames name)))
  | rhs :: lhs :: stack, .binary .add _ _ => .ok ((lhs + rhs) :: stack)
  | rhs :: lhs :: stack, .binary .sub _ _ => .ok ((lhs - rhs) :: stack)
  | rhs :: lhs :: stack, .binary .mul _ _ => .ok ((lhs * rhs) :: stack)
  | rhs :: lhs :: stack, .binary .div _ _ =>
      if rhs == 0 then .error (.failed .divisionByZero) else .ok ((lhs / rhs) :: stack)
  | _, .binary _ _ _ => .error .underflow

def run (context : Context α) (stack : List α) (nodes : List (Expr α)) :
    Except Fault (List α) :=
  nodes.foldlM (step context) stack

/-- What the machine comes to with a value, or an error, for the top of a stack. -/
def pushed (stack : List α) : Except EvalError α → Except Fault (List α)
  | .ok value => .ok (value :: stack)
  | .error error => .error (.failed error)

variable {context : Context α} {stack : List α}

/-! ## One node -/

private theorem step_var (name : String) :
    step context stack (.var name) = pushed stack (Context.lookup context name) := by
  rw [step, Context.lookup]
  cases context.find? name <;> rfl

private theorem step_binary (operator : Operator) (lhs rhs : Expr α) (lhsValue rhsValue : α) :
    step context (rhsValue :: lhsValue :: stack) (.binary operator lhs rhs) =
      pushed stack (operator.result lhsValue rhsValue) := by
  cases operator with
  | add | sub | mul => rfl
  | div =>
      simp only [step, Operator.result]
      cases rhsValue == 0 <;> rfl

/-! ## Runs -/

private theorem run_cons (node : Expr α) (rest : List (Expr α)) :
    run context stack (node :: rest) =
      (step context stack node >>= fun next => run context next rest) :=
  List.foldlM_cons ..

private theorem run_append (front back : List (Expr α)) :
    run context stack (front ++ back) =
      (run context stack front >>= fun next => run context next back) :=
  List.foldlM_append ..

private theorem run_singleton (node : Expr α) :
    run context stack [node] = step context stack node := by
  rw [run_cons]
  exact bind_pure _

/-- A run stops at the first node that fails. -/
theorem run_eq_error {nodes : List (Expr α)} {fault : Fault} :
    run context stack nodes = .error fault ↔
      ∃ before node after reached, nodes = before ++ node :: after ∧
        run context stack before = .ok reached ∧ step context reached node = .error fault := by
  constructor
  · intro failed
    induction nodes generalizing stack with
    | nil => cases failed
    | cons node rest ih =>
        rw [run_cons] at failed
        cases stepped : step context stack node with
        | error other =>
            rw [stepped] at failed
            cases failed
            exact ⟨[], node, rest, stack, rfl, rfl, stepped⟩
        | ok next =>
            rw [stepped] at failed
            obtain ⟨before, last, after, reached, rfl, ran, stopped⟩ := ih failed
            refine ⟨node :: before, last, after, reached, rfl, ?_, stopped⟩
            rw [run_cons, stepped]
            exact ran
  · intro stops
    obtain ⟨before, node, after, reached, rfl, ran, stopped⟩ := stops
    rw [run_append, ran]
    change run context reached (node :: after) = _
    rw [run_cons, stopped]
    rfl

/-- The nodes of an expression leave its value on top of the stack, or fail as it does. -/
theorem run_postOrder (expr : Expr α) :
    run context stack expr.postOrder = pushed stack (expr.evaluate context) := by
  induction expr generalizing stack with
  | num value => rw [Expr.postOrder_num, run_singleton]; rfl
  | var name => rw [Expr.postOrder_var, run_singleton, step_var]; rfl
  | binary operator lhs rhs lhsIH rhsIH =>
      rw [Expr.postOrder_binary, run_append, lhsIH, Expr.evaluate]
      cases lhs.evaluate context with
      | error error => rfl
      | ok lhsValue =>
          change run context (lhsValue :: stack) _ = _
          rw [run_append, rhsIH]
          cases rhs.evaluate context with
          | error error => rfl
          | ok rhsValue =>
              change run context (rhsValue :: lhsValue :: stack) _ = _
              rw [run_singleton, step_binary]
              rfl

end StackMachine

/-- The machine finds two values for each operator. It ends with the value of the expression as
the only one on the stack, or else with the error of the expression, which is the one of the
first node that fails. -/
theorem evaluate_by_stack {α : Type} [Arithmetic α] (context : Context α) (expr : Expr α) :
    (∀ count, StackMachine.run context [] (expr.postOrder.take count) ≠ .error .underflow) ∧
    (∀ value, StackMachine.run context [] expr.postOrder = .ok [value] ↔
      expr.evaluate context = .ok value) ∧
    (∀ error, StackMachine.run context [] expr.postOrder = .error (.failed error) ↔
      expr.evaluate context = .error error) ∧
    ∀ error, expr.evaluate context = .error error ↔
      ∃ before node after stack, expr.postOrder = before ++ node :: after ∧
        StackMachine.run context [] before = .ok stack ∧
        StackMachine.step context stack node = .error (.failed error) := by
  have ends : StackMachine.run context [] expr.postOrder =
      StackMachine.pushed [] (expr.evaluate context) := StackMachine.run_postOrder expr
  have fails (error : EvalError) :
      StackMachine.run context [] expr.postOrder = .error (.failed error) ↔
        expr.evaluate context = .error error := by
    rw [ends]
    cases expr.evaluate context <;> simp [StackMachine.pushed]
  refine ⟨fun count underflow => ?_, fun value => ?_, fails, fun error => ?_⟩
  · have whole : StackMachine.run context [] expr.postOrder = .error .underflow := by
      rw [← List.take_append_drop count expr.postOrder, StackMachine.run_append, underflow]
      rfl
    rw [ends] at whole
    cases evaluated : expr.evaluate context <;> rw [evaluated] at whole <;> cases whole
  · rw [ends]
    cases expr.evaluate context <;> simp [StackMachine.pushed]
  · rw [← fails, StackMachine.run_eq_error]

end Calculator
