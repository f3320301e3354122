import Calculator.Number.Double
import Calculator.Proofs.Expr.Evaluation
import Calculator.Proofs.Expr.PostOrder
import Calculator.Proofs.NameMap
import Calculator.Proofs.Text.EditDistance

/-!
# The variables of an evaluation

An evaluation reads its context at the variables of the expression only, apart from the
names that it suggests for an unbound one. Those are the bound names that an edit of one
character makes of it.
-/

set_option autoImplicit false

namespace Calculator

variable {α : Type}

/-- Two evaluations end in the same value or for the same reason. The names that they
suggest may differ. -/
inductive EndAlike : Except EvalError α → Except EvalError α → Prop where
  | value (value : α) : EndAlike (.ok value) (.ok value)
  | divisionByZero : EndAlike (.error .divisionByZero) (.error .divisionByZero)
  | unbound (name : String) (first second : List String) :
      EndAlike (.error (.unboundVariable name first)) (.error (.unboundVariable name second))

namespace EndAlike

theorem refl (result : Except EvalError α) : EndAlike result result := by
  cases result with
  | ok value => exact .value value
  | error error =>
      cases error with
      | divisionByZero => exact .divisionByZero
      | unboundVariable name suggestions => exact .unbound name suggestions suggestions

private theorem bind {first second : Except EvalError α} (alike : EndAlike first second)
    {next other : α → Except EvalError α} (goOn : ∀ value, EndAlike (next value) (other value)) :
    EndAlike (first >>= next) (second >>= other) := by
  cases alike with
  | value value => exact goOn value
  | divisionByZero => exact .divisionByZero
  | unbound name first second => exact .unbound name first second

end EndAlike

namespace Context

theorem lookup_eq_error {context : Context α} {name : String} {error : EvalError} :
    lookup context name = .error error ↔
      context.find? name = none ∧ error = .unboundVariable name (similarNames context name) := by
  unfold lookup
  cases context.find? name <;> simp [eq_comm]

private theorem lookup_endAlike {first second : Context α} {name : String}
    (same : first.find? name = second.find? name) :
    EndAlike (lookup first name) (lookup second name) := by
  unfold lookup
  rw [same]
  cases second.find? name with
  | some value => exact .value value
  | none => exact .unbound name _ _

/-- The order in which the bound names are listed does not matter. -/
theorem similarAmong_eq_of_perm {context : Context α} {listing : List String}
    (perm : listing.Perm context.names) (name : String) :
    similarAmong listing name =
      context.names.filter fun other => editDistance other name < 2 :=
  NameMap.mergeSort_eq_of_perm (perm.filter _) (context.names_sorted.filter _)

private theorem similarNames_eq (context : Context α) (name : String) :
    similarNames context name = context.names.filter fun other => editDistance other name < 2 :=
  similarAmong_eq_of_perm (.refl _) name

private theorem mem_similarNames {context : Context α} {name other : String} :
    other ∈ similarNames context name ↔
      (context.find? other).isSome ∧ (EditsTo name.toList other.toList ∨ other = name) := by
  have symmetric : EditsTo other.toList name.toList ↔ EditsTo name.toList other.toList :=
    ⟨.symm, .symm⟩
  rw [similarNames_eq, List.mem_filter, NameMap.mem_names, decide_eq_true_iff,
    editDistance_lt_two_iff, symmetric, or_comm]

private theorem similarNames_sorted (context : Context α) (name : String) :
    (similarNames context name).Pairwise (· < ·) := by
  rw [similarNames_eq]
  exact context.names_sorted.filter _

end Context

namespace Expr

variable [Arithmetic α]

private theorem evaluate_endAlike {expr : Expr α} {first second : Context α}
    (agree : ∀ name ∈ expr.variableNames, first.find? name = second.find? name) :
    EndAlike (expr.evaluate first) (expr.evaluate second) := by
  induction expr with
  | num value => exact .value value
  | var name => exact Context.lookup_endAlike (agree name (mem_variableNames_var.mpr rfl))
  | binary operator lhs rhs lhsIH rhsIH =>
      have lhsAlike := lhsIH fun name member =>
        agree name (mem_variableNames_binary.mpr (.inl member))
      have rhsAlike := rhsIH fun name member =>
        agree name (mem_variableNames_binary.mpr (.inr member))
      exact lhsAlike.bind fun _ => rhsAlike.bind fun _ => .refl _

/-- A name is reported as unbound only where the expression uses it and it is. -/
theorem evaluate_eq_unbound {expr : Expr α} {context : Context α} {name : String}
    {suggestions : List String}
    (failed : expr.evaluate context = .error (.unboundVariable name suggestions)) :
    name ∈ expr.variableNames ∧ context.find? name = none ∧
      suggestions = Context.similarNames context name := by
  induction expr with
  | num value => cases failed
  | var other =>
      obtain ⟨unbound, same⟩ := Context.lookup_eq_error.mp failed
      cases same
      exact ⟨mem_variableNames_var.mpr rfl, unbound, rfl⟩
  | binary operator lhs rhs lhsIH rhsIH =>
      rcases evaluate_binary_eq_error.mp failed with
        lhsFailed | ⟨_, _, rhsFailed⟩ | ⟨_, _, _, _, noResult⟩
      · obtain ⟨member, rest⟩ := lhsIH lhsFailed
        exact ⟨mem_variableNames_binary.mpr (.inl member), rest⟩
      · obtain ⟨member, rest⟩ := rhsIH rhsFailed
        exact ⟨mem_variableNames_binary.mpr (.inr member), rest⟩
      · cases (Operator.result_eq_error.mp noResult).2.2

end Expr

/-- Contexts that agree on the variables of an expression evaluate it alike, and only an unbound
variable of the expression is reported as unbound. -/
theorem evaluate_reads_variables [Arithmetic α] (expr : Expr α) :
    (∀ first second : Context α,
      (∀ name ∈ expr.variableNames, first.find? name = second.find? name) →
        EndAlike (expr.evaluate first) (expr.evaluate second)) ∧
    (∀ (context : Context α) (name : String) (suggestions : List String),
      expr.evaluate context = .error (.unboundVariable name suggestions) →
        name ∈ expr.variableNames ∧ context.find? name = none) ∧
    ∀ context : Context α, (∀ name ∈ expr.variableNames, (context.find? name).isSome) →
      ∀ name suggestions, expr.evaluate context ≠ .error (.unboundVariable name suggestions) := by
  refine ⟨fun first second => Expr.evaluate_endAlike, ?_, ?_⟩
  · intro context name suggestions failed
    obtain ⟨member, unbound, -⟩ := Expr.evaluate_eq_unbound failed
    exact ⟨member, unbound⟩
  · intro context bound name suggestions failed
    obtain ⟨member, unbound, -⟩ := Expr.evaluate_eq_unbound failed
    have isBound := bound name member
    rw [unbound] at isBound
    cases isBound

/-- A context that binds `x` to a number. -/
def onlyX (value : Float) : Context Float :=
  .ofList [("x", value)]

/-- The quotient `x / ab`, of which `ab` is unbound, suggests what each context has near it. -/
theorem evaluate_reads_variables_quotient :
    (Expr.div (.var "x") (.var "ab")).evaluate (onlyX 1) =
        .error (.unboundVariable "ab" []) ∧
      (Expr.div (.var "x") (.var "ab")).evaluate ((onlyX 1).insert "abc" 2) =
        .error (.unboundVariable "ab" ["abc"]) ∧
      EndAlike ((Expr.div (.var "x") (.var "ab")).evaluate (onlyX 1))
        ((Expr.div (.var "x") (.var "ab")).evaluate ((onlyX 1).insert "abc" 2)) := by
  have alone : (onlyX 1).similarNames "ab" = [] := (Context.similarNames_eq _ _).trans rfl
  have suggested : Context.similarNames ((onlyX 1).insert "abc" 2) "ab" = ["abc"] :=
    (Context.similarNames_eq _ _).trans rfl
  refine ⟨?_, ?_, (evaluate_reads_variables _).1 _ _ fun name member => ?_⟩
  · rw [← alone]
    rfl
  · rw [← suggested]
    rfl
  have apart : "abc" ≠ name := by
    intro same
    subst same
    simp [Expr.div, Expr.mem_variableNames_binary, Expr.mem_variableNames_var] at member
  rw [NameMap.find?_insert, if_neg apart]

/-- An unbound name comes with the bound names that one edit makes of it, in order, and the
similar names of any name are these and the name itself if it is bound. -/
theorem suggestions_are_neighbours [Arithmetic α] (context : Context α) :
    (∀ (expr : Expr α) (name : String) (suggestions : List String),
      expr.evaluate context = .error (.unboundVariable name suggestions) →
        context.find? name = none ∧ suggestions.Pairwise (· < ·) ∧
          ∀ other, other ∈ suggestions ↔
            (context.find? other).isSome ∧ EditsTo name.toList other.toList) ∧
    ∀ name : String, (Context.similarNames context name).Pairwise (· < ·) ∧
      ∀ other, other ∈ Context.similarNames context name ↔
        (context.find? other).isSome ∧ (EditsTo name.toList other.toList ∨ other = name) := by
  refine ⟨?_, fun name => ⟨context.similarNames_sorted name, fun _ => Context.mem_similarNames⟩⟩
  intro expr name suggestions failed
  obtain ⟨-, unbound, rfl⟩ := Expr.evaluate_eq_unbound failed
  refine ⟨unbound, context.similarNames_sorted name, fun other => ?_⟩
  rw [Context.mem_similarNames]
  constructor
  · intro similar
    obtain ⟨bound, edited | rfl⟩ := similar
    · exact ⟨bound, edited⟩
    · rw [unbound] at bound
      cases bound
  · intro neighbour
    exact ⟨neighbour.1, .inl neighbour.2⟩

def fourNames : Context Float :=
  .ofList [("xy", 2), ("y", 4), ("abc", 3), ("x", 1)]

theorem suggestions_are_neighbours_letter :
    (Expr.var "z").evaluate fourNames = .error (.unboundVariable "z" ["x", "y"]) ∧
      fourNames.find? "z" = none ∧
      ∀ other, other ∈ ["x", "y"] ↔
        (fourNames.find? other).isSome ∧ EditsTo "z".toList other.toList := by
  have suggested : fourNames.similarNames "z" = ["x", "y"] :=
    (Context.similarNames_eq _ _).trans rfl
  have failed : (Expr.var "z").evaluate fourNames =
      .error (.unboundVariable "z" ["x", "y"]) := by
    rw [← suggested]
    rfl
  obtain ⟨unbound, -, neighbours⟩ := (suggestions_are_neighbours fourNames).1 _ _ _ failed
  exact ⟨failed, unbound, neighbours⟩

end Calculator
