import Mathlib.Algebra.DualNumber
import Mathlib.Algebra.Field.Rat
import Mathlib.Tactic.FieldSimp
import Mathlib.Tactic.Ring
import Calculator.Derivative
import Calculator.Proofs.Expr.Evaluation
import Calculator.Proofs.Expr.PostOrder
import Calculator.Proofs.Number.Field

/-!
# Derivatives as dual numbers

Over exact arithmetic the derivative has a value exactly where the expression has one,
and together they are the value of the expression at a variable that is moved by an
infinitesimal.
-/

set_option autoImplicit false

namespace Calculator

open DualNumber TrivSqZeroExt

variable {K : Type} [Field K]

/-- The result of an operation on dual numbers. A quotient is defined where the divisor
is not infinitesimal, and gives the dividend when it is multiplied by the divisor. -/
def DualResult : Operator → K[ε] → K[ε] → K[ε] → Prop
  | .add, lhs, rhs, sum => sum = lhs + rhs
  | .sub, lhs, rhs, difference => difference = lhs - rhs
  | .mul, lhs, rhs, product => product = lhs * rhs
  | .div, lhs, rhs, quotient => rhs.fst ≠ 0 ∧ quotient * rhs = lhs

/-- The value of an expression over the dual numbers, where one variable is moved by `ε`
and every other name is a constant. -/
inductive DualValue (context : Context K) (variableName : String) : Expr K → K[ε] → Prop where
  | num (value : K) : DualValue context variableName (.num value) (inl value)
  | moved {value : K} : context.find? variableName = some value →
      DualValue context variableName (.var variableName) (inl value + ε)
  | constant {name : String} {value : K} : name ≠ variableName →
      context.find? name = some value → DualValue context variableName (.var name) (inl value)
  | binary {operator : Operator} {lhs rhs : Expr K} {lhsValue rhsValue value : K[ε]} :
      DualValue context variableName lhs lhsValue → DualValue context variableName rhs rhsValue →
      DualResult operator lhsValue rhsValue value →
      DualValue context variableName (.binary operator lhs rhs) value

/-! ## Operations on dual numbers -/

theorem eq_inl_add_smul_iff {dual : K[ε]} {value slope : K} :
    dual = inl value + slope • ε ↔ dual.fst = value ∧ dual.snd = slope := by
  constructor
  · intro same
    subst same
    simp
  · intro parts
    obtain ⟨rfl, rfl⟩ := parts
    ext <;> simp

theorem mul_eq_dividend_iff {quotient divisor dividend : K[ε]} (nonzero : divisor.fst ≠ 0) :
    quotient * divisor = dividend ↔ quotient.fst = dividend.fst / divisor.fst ∧
      quotient.snd = (dividend.snd * divisor.fst - dividend.fst * divisor.snd) /
        (divisor.fst * divisor.fst) := by
  constructor
  · intro product
    subst product
    simp only [fst_mul, DualNumber.snd_mul]
    constructor
    · field_simp
    · field_simp
      ring
  · intro parts
    obtain ⟨standard, infinitesimal⟩ := parts
    ext
    · rw [fst_mul, standard]
      field_simp
    · rw [DualNumber.snd_mul, standard, infinitesimal]
      field_simp
      ring

section Results

variable {lhs lhsSlope rhs rhsSlope : K} {result : K[ε]}

private theorem dualResult_add :
    DualResult .add (inl lhs + lhsSlope • ε) (inl rhs + rhsSlope • ε) result ↔
      result = inl (lhs + rhs) + (lhsSlope + rhsSlope) • ε := by
  rw [DualResult, eq_inl_add_smul_iff, TrivSqZeroExt.ext_iff]
  simp

private theorem dualResult_sub :
    DualResult .sub (inl lhs + lhsSlope • ε) (inl rhs + rhsSlope • ε) result ↔
      result = inl (lhs - rhs) + (lhsSlope - rhsSlope) • ε := by
  rw [DualResult, eq_inl_add_smul_iff, TrivSqZeroExt.ext_iff]
  simp

private theorem dualResult_mul :
    DualResult .mul (inl lhs + lhsSlope • ε) (inl rhs + rhsSlope • ε) result ↔
      result = inl (lhs * rhs) + (lhsSlope * rhs + lhs * rhsSlope) • ε := by
  rw [DualResult, eq_inl_add_smul_iff, TrivSqZeroExt.ext_iff]
  simp [add_comm]

private theorem dualResult_div (nonzero : rhs ≠ 0) :
    DualResult .div (inl lhs + lhsSlope • ε) (inl rhs + rhsSlope • ε) result ↔
      result = inl (lhs / rhs) + ((lhsSlope * rhs - lhs * rhsSlope) / (rhs * rhs)) • ε := by
  have standard : (inl rhs + rhsSlope • ε : K[ε]).fst = rhs := by simp
  rw [DualResult, standard, mul_eq_dividend_iff (by rwa [standard]), eq_inl_add_smul_iff]
  simp [nonzero]

end Results

section Expressions

variable {context : Context K} {variableName : String}

theorem dualValue_num_iff {value : K} {result : K[ε]} :
    DualValue context variableName (.num value) result ↔ result = inl value + (0 : K) • ε := by
  rw [zero_smul, add_zero]
  constructor
  · intro reached
    cases reached
    rfl
  · intro same
    subst same
    exact .num value

theorem dualValue_moved_iff {value : K} {result : K[ε]}
    (found : context.find? variableName = some value) :
    DualValue context variableName (.var variableName) result ↔
      result = inl value + (1 : K) • ε := by
  rw [one_smul]
  constructor
  · intro reached
    cases reached with
    | moved other =>
        rw [found] at other
        cases other
        rfl
    | constant different => exact absurd rfl different
  · intro same
    subst same
    exact .moved found

theorem dualValue_constant_iff {name : String} {value : K} {result : K[ε]}
    (different : name ≠ variableName) (found : context.find? name = some value) :
    DualValue context variableName (.var name) result ↔ result = inl value + (0 : K) • ε := by
  rw [zero_smul, add_zero]
  constructor
  · intro reached
    cases reached with
    | moved => exact absurd rfl different
    | constant _ other =>
        rw [found] at other
        cases other
        rfl
  · intro same
    subst same
    exact .constant different found

/-- Where the dual values of the operands are known, that of an operation is a result. -/
theorem dualValue_binary_iff {operator : Operator} {lhs rhs : Expr K}
    {lhsValue rhsValue result : K[ε]}
    (lhsDual : ∀ moved, DualValue context variableName lhs moved ↔ moved = lhsValue)
    (rhsDual : ∀ moved, DualValue context variableName rhs moved ↔ moved = rhsValue) :
    DualValue context variableName (.binary operator lhs rhs) result ↔
      DualResult operator lhsValue rhsValue result := by
  constructor
  · intro reached
    cases reached with
    | binary lhsReached rhsReached given =>
        rwa [(lhsDual _).mp lhsReached, (rhsDual _).mp rhsReached] at given
  · exact .binary ((lhsDual lhsValue).mpr rfl) ((rhsDual rhsValue).mpr rfl)

end Expressions

/-! ## Values of derivatives -/

variable [DecidableEq K]

/-- An expression and its derivative both have a value, and make up its dual value, or
neither of them has one. -/
inductive Differentiates (context : Context K) (variableName : String) (expr : Expr K) : Prop where
  | defined {value slope : K} (evaluated : expr.evaluate context = .ok value)
      (sloped : (expr.derivative variableName).evaluate context = .ok slope)
      (dual : ∀ moved, DualValue context variableName expr moved ↔ moved = inl value + slope • ε)
  | undefined (noValue : ∀ value, expr.evaluate context ≠ .ok value)
      (noSlope : ∀ slope, (expr.derivative variableName).evaluate context ≠ .ok slope)

variable {context : Context K} {variableName : String} {lhs rhs : Expr K}

private theorem evaluate_derivative_operands {operator : Operator} {slope : K}
    (sloped : ((Expr.binary operator lhs rhs).derivative variableName).evaluate context =
      .ok slope) :
    (∃ lhsSlope, (lhs.derivative variableName).evaluate context = .ok lhsSlope) ∧
      ∃ rhsSlope, (rhs.derivative variableName).evaluate context = .ok rhsSlope := by
  have ofProducts {sum : Operator} {value : K}
      (evaluated : (Expr.binary sum (.mul (lhs.derivative variableName) rhs)
        (.mul lhs (rhs.derivative variableName))).evaluate context = .ok value) :
      (∃ lhsSlope, (lhs.derivative variableName).evaluate context = .ok lhsSlope) ∧
        ∃ rhsSlope, (rhs.derivative variableName).evaluate context = .ok rhsSlope := by
    obtain ⟨_, _, left, right, _⟩ := Expr.evaluate_binary_eq_ok.mp evaluated
    obtain ⟨lhsSlope, _, lhsSloped, _, _⟩ := Expr.evaluate_binary_eq_ok.mp left
    obtain ⟨_, rhsSlope, _, rhsSloped, _⟩ := Expr.evaluate_binary_eq_ok.mp right
    exact ⟨⟨lhsSlope, lhsSloped⟩, ⟨rhsSlope, rhsSloped⟩⟩
  cases operator with
  | add | sub =>
      obtain ⟨lhsSlope, rhsSlope, lhsSloped, rhsSloped, _⟩ := Expr.evaluate_binary_eq_ok.mp sloped
      exact ⟨⟨lhsSlope, lhsSloped⟩, ⟨rhsSlope, rhsSloped⟩⟩
  | mul => exact ofProducts sloped
  | div =>
      obtain ⟨_, _, numerator, _, _⟩ := Expr.evaluate_binary_eq_ok.mp sloped
      exact ofProducts numerator

private theorem Differentiates.undefined_of_lhs {operator : Operator}
    (noValue : ∀ value, lhs.evaluate context ≠ .ok value)
    (noSlope : ∀ slope, (lhs.derivative variableName).evaluate context ≠ .ok slope) :
    Differentiates context variableName (.binary operator lhs rhs) := by
  refine .undefined (fun value evaluated => ?_) (fun slope sloped => ?_)
  · obtain ⟨lhsValue, _, lhsEvaluated, _⟩ := Expr.evaluate_binary_eq_ok.mp evaluated
    exact noValue lhsValue lhsEvaluated
  · obtain ⟨⟨lhsSlope, lhsSloped⟩, _⟩ := evaluate_derivative_operands sloped
    exact noSlope lhsSlope lhsSloped

private theorem Differentiates.undefined_of_rhs {operator : Operator}
    (noValue : ∀ value, rhs.evaluate context ≠ .ok value)
    (noSlope : ∀ slope, (rhs.derivative variableName).evaluate context ≠ .ok slope) :
    Differentiates context variableName (.binary operator lhs rhs) := by
  refine .undefined (fun value evaluated => ?_) (fun slope sloped => ?_)
  · obtain ⟨_, rhsValue, _, rhsEvaluated, _⟩ := Expr.evaluate_binary_eq_ok.mp evaluated
    exact noValue rhsValue rhsEvaluated
  · obtain ⟨_, ⟨rhsSlope, rhsSloped⟩⟩ := evaluate_derivative_operands sloped
    exact noSlope rhsSlope rhsSloped

private theorem evaluate_products {sum : Operator} {lhsValue lhsSlope rhsValue rhsSlope : K}
    (lhsEvaluated : lhs.evaluate context = .ok lhsValue)
    (lhsSloped : (lhs.derivative variableName).evaluate context = .ok lhsSlope)
    (rhsEvaluated : rhs.evaluate context = .ok rhsValue)
    (rhsSloped : (rhs.derivative variableName).evaluate context = .ok rhsSlope) :
    (Expr.binary sum (.mul (lhs.derivative variableName) rhs)
        (.mul lhs (rhs.derivative variableName))).evaluate context =
      sum.result (lhsSlope * rhsValue) (lhsValue * rhsSlope) :=
  Expr.evaluate_binary_of_ok (Expr.evaluate_binary_of_ok lhsSloped rhsEvaluated)
    (Expr.evaluate_binary_of_ok lhsEvaluated rhsSloped)

private theorem Differentiates.quotient {lhsValue lhsSlope rhsValue rhsSlope : K}
    (lhsEvaluated : lhs.evaluate context = .ok lhsValue)
    (lhsSloped : (lhs.derivative variableName).evaluate context = .ok lhsSlope)
    (lhsDual : ∀ moved, DualValue context variableName lhs moved ↔
      moved = inl lhsValue + lhsSlope • ε)
    (rhsEvaluated : rhs.evaluate context = .ok rhsValue)
    (rhsSloped : (rhs.derivative variableName).evaluate context = .ok rhsSlope)
    (rhsDual : ∀ moved, DualValue context variableName rhs moved ↔
      moved = inl rhsValue + rhsSlope • ε) :
    Differentiates context variableName (.binary .div lhs rhs) := by
  have value : (Expr.binary .div lhs rhs).evaluate context =
      Operator.div.result lhsValue rhsValue :=
    Expr.evaluate_binary_of_ok lhsEvaluated rhsEvaluated
  have numerator : (Expr.sub (.mul (lhs.derivative variableName) rhs)
      (.mul lhs (rhs.derivative variableName))).evaluate context =
        .ok (lhsSlope * rhsValue - lhsValue * rhsSlope) :=
    evaluate_products lhsEvaluated lhsSloped rhsEvaluated rhsSloped
  have square : (Expr.mul rhs rhs).evaluate context = .ok (rhsValue * rhsValue) :=
    Expr.evaluate_binary_of_ok rhsEvaluated rhsEvaluated
  have slope : ((Expr.binary .div lhs rhs).derivative variableName).evaluate context =
      Operator.div.result (lhsSlope * rhsValue - lhsValue * rhsSlope) (rhsValue * rhsValue) :=
    Expr.evaluate_binary_of_ok numerator square
  -- The denominator is the square of the divisor, so both quotients are undefined together.
  by_cases zero : rhsValue = 0
  · rw [zero, Operator.result_div_zero] at value
    rw [zero, mul_zero, mul_zero, Operator.result_div_zero] at slope
    refine .undefined (fun result evaluated => ?_) (fun result sloped => ?_)
    · rw [value] at evaluated
      cases evaluated
    · rw [slope] at sloped
      cases sloped
  · rw [Operator.result_div zero] at value
    rw [Operator.result_div (mul_ne_zero zero zero)] at slope
    exact .defined value slope fun moved =>
      (dualValue_binary_iff lhsDual rhsDual).trans (dualResult_div zero)

private theorem Differentiates.binary (operator : Operator)
    (lhsDifferentiates : Differentiates context variableName lhs)
    (rhsDifferentiates : Differentiates context variableName rhs) :
    Differentiates context variableName (.binary operator lhs rhs) := by
  cases lhsDifferentiates with
  | undefined noValue noSlope => exact .undefined_of_lhs noValue noSlope
  | @defined lhsValue lhsSlope lhsEvaluated lhsSloped lhsDual =>
      cases rhsDifferentiates with
      | undefined noValue noSlope => exact .undefined_of_rhs noValue noSlope
      | @defined rhsValue rhsSlope rhsEvaluated rhsSloped rhsDual =>
          have value : (Expr.binary operator lhs rhs).evaluate context =
              operator.result lhsValue rhsValue :=
            Expr.evaluate_binary_of_ok lhsEvaluated rhsEvaluated
          have dual (moved : K[ε]) :
              DualValue context variableName (.binary operator lhs rhs) moved ↔
                DualResult operator (inl lhsValue + lhsSlope • ε) (inl rhsValue + rhsSlope • ε)
                  moved :=
            dualValue_binary_iff lhsDual rhsDual
          cases operator with
          | add =>
              exact .defined value (Expr.evaluate_binary_of_ok lhsSloped rhsSloped)
                fun moved => (dual moved).trans dualResult_add
          | sub =>
              exact .defined value (Expr.evaluate_binary_of_ok lhsSloped rhsSloped)
                fun moved => (dual moved).trans dualResult_sub
          | mul =>
              exact .defined value
                (evaluate_products lhsEvaluated lhsSloped rhsEvaluated rhsSloped)
                fun moved => (dual moved).trans dualResult_mul
          | div =>
              exact .quotient lhsEvaluated lhsSloped lhsDual rhsEvaluated rhsSloped rhsDual

private theorem Differentiates.of_bound {expr : Expr K}
    (bound : ∀ name ∈ expr.variableNames, ∃ value, context.find? name = some value) :
    Differentiates context variableName expr := by
  induction expr with
  | num value => exact .defined rfl rfl fun moved => dualValue_num_iff
  | var name =>
      obtain ⟨value, found⟩ := bound name (Expr.mem_variableNames_var.mpr rfl)
      have evaluated : (Expr.var name).evaluate context = .ok value := by
        rw [Expr.evaluate, Context.lookup, found]
      by_cases same : name = variableName
      · subst same
        have sloped : ((Expr.var name).derivative name).evaluate context = .ok 1 := by
          rw [Expr.derivative, if_pos rfl]
          rfl
        exact .defined evaluated sloped fun moved => dualValue_moved_iff found
      · have sloped : ((Expr.var name).derivative variableName).evaluate context = .ok 0 := by
          rw [Expr.derivative, if_neg same]
          rfl
        exact .defined evaluated sloped fun moved => dualValue_constant_iff same found
  | binary operator lhs rhs lhsIH rhsIH =>
      have operands (name : String) :
          name ∈ lhs.variableNames ∨ name ∈ rhs.variableNames →
            ∃ value, context.find? name = some value :=
        fun member => bound name (Expr.mem_variableNames_binary.mpr member)
      exact .binary operator (lhsIH fun name member => operands name (.inl member))
        (rhsIH fun name member => operands name (.inr member))

/-- In a context that binds every variable of an expression, the derivative has a value
exactly if the expression has one, and the two values are the parts of the dual value of
the expression. -/
theorem evaluate_derivative {K : Type} [Field K] [DecidableEq K] (context : Context K)
    (variableName : String) (expr : Expr K)
    (bound : ∀ name ∈ expr.variableNames, ∃ value, context.find? name = some value) :
    ((∃ slope, (expr.derivative variableName).evaluate context = .ok slope) ↔
      ∃ value, expr.evaluate context = .ok value) ∧
    ∀ value slope, expr.evaluate context = .ok value →
      (expr.derivative variableName).evaluate context = .ok slope →
      ∀ moved, DualValue context variableName expr moved ↔ moved = inl value + slope • ε := by
  cases Differentiates.of_bound bound with
  | @defined value slope evaluated sloped dual =>
      refine ⟨⟨fun _ => ⟨value, evaluated⟩, fun _ => ⟨slope, sloped⟩⟩, ?_⟩
      intro otherValue otherSlope otherEvaluated otherSloped
      rw [evaluated] at otherEvaluated
      rw [sloped] at otherSloped
      cases otherEvaluated
      cases otherSloped
      exact dual
  | undefined noValue noSlope =>
      refine ⟨⟨?_, ?_⟩, fun value _ evaluated => absurd evaluated (noValue value)⟩
      · intro differentiated
        obtain ⟨slope, sloped⟩ := differentiated
        exact absurd sloped (noSlope slope)
      · intro defined
        obtain ⟨value, evaluated⟩ := defined
        exact absurd evaluated (noValue value)

/-- The quotient `(x * y) / (x - 3)`. -/
def sampleQuotient : Expr ℚ :=
  .div (.mul (.var "x") (.var "y")) (.sub (.var "x") (.num 3))

/-- The values `x = 5` and `y = 2`. -/
def sampleContext : Context ℚ :=
  (NameMap.empty.insert "x" 5).insert "y" 2

theorem evaluate_derivative_rationals :
    (∀ name ∈ sampleQuotient.variableNames, ∃ value, sampleContext.find? name = some value) ∧
      sampleQuotient.evaluate sampleContext = .ok 5 ∧
      (sampleQuotient.derivative "x").evaluate sampleContext = .ok (-3 / 2) ∧
      DualValue sampleContext "x" sampleQuotient (inl 5 + (-3 / 2 : ℚ) • ε) := by
  have bound : ∀ name ∈ sampleQuotient.variableNames,
      ∃ value, sampleContext.find? name = some value := by
    intro name member
    simp only [sampleQuotient, Expr.div, Expr.mul, Expr.sub, Expr.mem_variableNames_binary,
      Expr.mem_variableNames_var, Expr.not_mem_variableNames_num, or_false] at member
    rcases member with (rfl | rfl) | rfl
    · exact ⟨5, by decide +kernel⟩
    · exact ⟨2, by decide +kernel⟩
    · exact ⟨5, by decide +kernel⟩
  have evaluated : sampleQuotient.evaluate sampleContext = .ok 5 := by decide +kernel
  have sloped : (sampleQuotient.derivative "x").evaluate sampleContext = .ok (-3 / 2) := by
    decide +kernel
  exact ⟨bound, evaluated, sloped,
    ((evaluate_derivative sampleContext "x" sampleQuotient bound).2 _ _ evaluated sloped _).mpr
      rfl⟩

end Calculator
