import Mathlib.Logic.Relation
import Calculator.Proofs.Expr.PostOrder
import Calculator.Proofs.NameMap
import Calculator.Proofs.Number.Equality

/-!
# Equality up to the order of operands

Expressions are equal up to the order of operands when each sum or product of the one has its
operands straight or crossed in the other. However the two readings are mixed, this is what
exchanging the operands of single sums and products comes to, and replacing single numbers by
equal ones.

Equality of numbers is assumed to be symmetric and transitive, but not reflexive.
-/

set_option autoImplicit false

namespace Calculator

open Relation

variable {α : Type}

namespace Expr

private theorem variableNames_eq_of_mem {first second : Expr α}
    (same : ∀ name, name ∈ first.variableNames ↔ name ∈ second.variableNames) :
    first.variableNames = second.variableNames :=
  NameMap.names_eq_of_mem same

variable [BEq α]

/-- One sum or product with its operands exchanged, or one number replaced by an equal one,
anywhere in an expression. -/
inductive ExchangesTo : Expr α → Expr α → Prop where
  | sum (lhs rhs : Expr α) : ExchangesTo (.binary .add lhs rhs) (.binary .add rhs lhs)
  | product (lhs rhs : Expr α) : ExchangesTo (.binary .mul lhs rhs) (.binary .mul rhs lhs)
  | number {first second : α} :
      (first == second) = true → ExchangesTo (.num first) (.num second)
  | lhs {lhs newLhs : Expr α} (operator : Operator) (rhs : Expr α) :
      ExchangesTo lhs newLhs →
      ExchangesTo (.binary operator lhs rhs) (.binary operator newLhs rhs)
  | rhs {rhs newRhs : Expr α} (operator : Operator) (lhs : Expr α) :
      ExchangesTo rhs newRhs →
      ExchangesTo (.binary operator lhs rhs) (.binary operator lhs newRhs)

/-- Every number in the expression equals itself, so that none is NaN. -/
def NaNFree (expr : Expr α) : Prop :=
  ∀ value, num value ∈ expr.postOrder → (value == value) = true

private theorem nanFree_num {value : α} : (num value).NaNFree ↔ (value == value) = true := by
  simp [NaNFree, postOrder_num]

private theorem nanFree_var (name : String) : (var name : Expr α).NaNFree := by
  simp [NaNFree, postOrder_var]

private theorem nanFree_binary {operator : Operator} {lhs rhs : Expr α} :
    (binary operator lhs rhs).NaNFree ↔ lhs.NaNFree ∧ rhs.NaNFree := by
  simp only [NaNFree, postOrder_binary, List.mem_append, List.mem_singleton, reduceCtorEq,
    or_false, or_imp, forall_and]

/-- Expressions with the operands of sums and products straight or crossed. -/
inductive Matches : Expr α → Expr α → Prop where
  | num {first second : α} : (first == second) = true → Matches (.num first) (.num second)
  | var (name : String) : Matches (.var name) (.var name)
  | straight (operator : Operator) {firstLhs firstRhs secondLhs secondRhs : Expr α} :
      Matches firstLhs secondLhs → Matches firstRhs secondRhs →
      Matches (.binary operator firstLhs firstRhs) (.binary operator secondLhs secondRhs)
  | crossed {operator : Operator} (commutes : operator.commutes = true)
      {firstLhs firstRhs secondLhs secondRhs : Expr α} :
      Matches firstLhs secondRhs → Matches firstRhs secondLhs →
      Matches (.binary operator firstLhs firstRhs) (.binary operator secondLhs secondRhs)

theorem matches_binary_iff {firstOperator secondOperator : Operator}
    {firstLhs firstRhs secondLhs secondRhs : Expr α} :
    Matches (.binary firstOperator firstLhs firstRhs)
        (.binary secondOperator secondLhs secondRhs) ↔
      firstOperator = secondOperator ∧
        (Matches firstLhs secondLhs ∧ Matches firstRhs secondRhs ∨
          firstOperator.commutes = true ∧
            Matches firstLhs secondRhs ∧ Matches firstRhs secondLhs) := by
  constructor
  · intro both
    cases both with
    | straight _ lhs rhs => exact ⟨rfl, .inl ⟨lhs, rhs⟩⟩
    | crossed commutes lhs rhs => exact ⟨rfl, .inr ⟨commutes, lhs, rhs⟩⟩
  · intro both
    obtain ⟨rfl, ⟨lhs, rhs⟩ | ⟨commutes, lhs, rhs⟩⟩ := both
    · exact .straight _ lhs rhs
    · exact .crossed commutes lhs rhs

theorem eqCommutative_iff_matches {first second : Expr α} :
    first.eqCommutative second = true ↔ Matches first second := by
  induction first generalizing second with
  | num value =>
      cases second with
      | num other =>
          change (value == other) = true ↔ _
          constructor
          · exact .num
          · intro both
            cases both with
            | num equal => exact equal
      | var | binary =>
          exact iff_of_false (by intro equal; cases equal) (by intro both; cases both)
  | var name =>
      cases second with
      | var other =>
          change (name == other) = true ↔ _
          constructor
          · intro equal
            cases beq_iff_eq.mp equal
            exact .var name
          · intro both
            cases both
            exact beq_self_eq_true name
      | num | binary =>
          exact iff_of_false (by intro equal; cases equal) (by intro both; cases both)
  | binary operator lhs rhs lhsIH rhsIH =>
      cases second with
      | num | var =>
          exact iff_of_false (by intro equal; cases equal) (by intro both; cases both)
      | binary otherOperator otherLhs otherRhs =>
          rw [matches_binary_iff]
          simp [eqCommutative, lhsIH, rhsIH]

namespace Matches

variable {first second third : Expr α}

theorem refl {expr : Expr α} (nanFree : expr.NaNFree) : Matches expr expr := by
  induction expr with
  | num value => exact .num (nanFree_num.mp nanFree)
  | var name => exact .var name
  | binary operator lhs rhs lhsIH rhsIH =>
      obtain ⟨lhsFree, rhsFree⟩ := nanFree_binary.mp nanFree
      exact .straight operator (lhsIH lhsFree) (rhsIH rhsFree)

private theorem size_eq (both : Matches first second) : first.size = second.size := by
  induction both with
  | num | var => rfl
  | straight _ _ _ lhsIH rhsIH => rw [size, size, lhsIH, rhsIH]
  | crossed _ _ _ lhsIH rhsIH =>
      rw [size, size, lhsIH, rhsIH]
      omega

private theorem depth_eq (both : Matches first second) : first.depth = second.depth := by
  induction both with
  | num | var => rfl
  | straight _ _ _ lhsIH rhsIH => rw [depth, depth, lhsIH, rhsIH]
  | crossed _ _ _ lhsIH rhsIH => rw [depth, depth, lhsIH, rhsIH, Nat.max_comm]

theorem mem_variableNames_iff (both : Matches first second) (name : String) :
    name ∈ first.variableNames ↔ name ∈ second.variableNames := by
  induction both with
  | num => simp only [not_mem_variableNames_num]
  | var => rfl
  | straight _ _ _ lhsIH rhsIH =>
      rw [mem_variableNames_binary, mem_variableNames_binary, lhsIH, rhsIH]
  | crossed _ _ _ lhsIH rhsIH =>
      rw [mem_variableNames_binary, mem_variableNames_binary, lhsIH, rhsIH, or_comm]

/-- The operands of one expression after the other are exchanged, then those of the root. -/
theorem exchanges (both : Matches first second) : ReflTransGen ExchangesTo first second := by
  have operands (operator : Operator) {lhs newLhs rhs newRhs : Expr α}
      (lhsSteps : ReflTransGen ExchangesTo lhs newLhs)
      (rhsSteps : ReflTransGen ExchangesTo rhs newRhs) :
      ReflTransGen ExchangesTo (binary operator lhs rhs) (binary operator newLhs newRhs) :=
    (lhsSteps.lift (binary operator · rhs) fun _ _ => .lhs operator rhs).trans
      (rhsSteps.lift (binary operator newLhs ·) fun _ _ => .rhs operator newLhs)
  induction both with
  | num equal => exact .single (.number equal)
  | var => exact .refl
  | straight operator _ _ lhsIH rhsIH => exact operands operator lhsIH rhsIH
  | @crossed operator commutes _ _ _ _ _ _ lhsIH rhsIH =>
      cases operator with
      | add => exact (operands .add lhsIH rhsIH).tail (.sum _ _)
      | mul => exact (operands .mul lhsIH rhsIH).tail (.product _ _)
      | sub | div => cases commutes

variable [PartialEquivBEq α]

theorem symm (both : Matches first second) : Matches second first := by
  induction both with
  | num equal => exact .num (BEq.symm equal)
  | var name => exact .var name
  | straight operator _ _ lhsIH rhsIH => exact .straight operator lhsIH rhsIH
  | crossed commutes _ _ lhsIH rhsIH => exact .crossed commutes rhsIH lhsIH

/-- Straight and crossed compose like the two orders of a pair. -/
theorem trans (front : Matches first second) (back : Matches second third) :
    Matches first third := by
  induction front generalizing third with
  | num equal =>
      cases back with
      | num next => exact .num (BEq.trans equal next)
  | var => exact back
  | straight operator _ _ lhsIH rhsIH =>
      cases back with
      | straight _ lhs rhs => exact .straight operator (lhsIH lhs) (rhsIH rhs)
      | crossed commutes lhs rhs => exact .crossed commutes (lhsIH lhs) (rhsIH rhs)
  | crossed commutes _ _ lhsIH rhsIH =>
      cases back with
      | straight _ lhs rhs => exact .crossed commutes (lhsIH rhs) (rhsIH lhs)
      | crossed _ lhs rhs => exact .straight _ (lhsIH rhs) (rhsIH lhs)

/-- A number that equals another equals itself. -/
theorem nanFree_right (both : Matches first second) : second.NaNFree := by
  induction both with
  | num equal => exact nanFree_num.mpr (BEq.trans (BEq.symm equal) equal)
  | var name => exact nanFree_var name
  | straight _ _ _ lhsIH rhsIH => exact nanFree_binary.mpr ⟨lhsIH, rhsIH⟩
  | crossed _ _ _ lhsIH rhsIH => exact nanFree_binary.mpr ⟨rhsIH, lhsIH⟩

omit [PartialEquivBEq α] in
private theorem of_exchangesTo (nanFree : first.NaNFree) (exchanges : ExchangesTo first second) :
    Matches first second := by
  induction exchanges with
  | sum lhs rhs | product lhs rhs =>
      obtain ⟨lhsFree, rhsFree⟩ := nanFree_binary.mp nanFree
      exact .crossed rfl (refl lhsFree) (refl rhsFree)
  | number equal => exact .num equal
  | lhs operator rhs _ ih =>
      obtain ⟨lhsFree, rhsFree⟩ := nanFree_binary.mp nanFree
      exact .straight operator (ih lhsFree) (refl rhsFree)
  | rhs operator lhs _ ih =>
      obtain ⟨lhsFree, rhsFree⟩ := nanFree_binary.mp nanFree
      exact .straight operator (refl lhsFree) (ih rhsFree)

private theorem of_exchanges (nanFree : first.NaNFree)
    (exchanges : ReflTransGen ExchangesTo first second) : Matches first second := by
  induction exchanges with
  | refl => exact refl nanFree
  | tail _ exchange ih => exact ih.trans (of_exchangesTo ih.nanFree_right exchange)

end Matches

end Expr

/-- Without NaN, expressions are equal up to the order of operands if and only if exchanges lead
from one to the other. So this equality is reflexive where there is no NaN, and in any case
symmetric and transitive, and it keeps the sizes and the variables. -/
theorem eqCommutative_iff_exchanges {α : Type} [BEq α] [PartialEquivBEq α] :
    (∀ first second : Expr α, first.NaNFree →
      (first.eqCommutative second = true ↔ ReflTransGen Expr.ExchangesTo first second)) ∧
    (∀ expr : Expr α, expr.NaNFree → expr.eqCommutative expr = true) ∧
    (∀ first second : Expr α, first.eqCommutative second = true →
      second.eqCommutative first = true) ∧
    (∀ first second third : Expr α, first.eqCommutative second = true →
      second.eqCommutative third = true → first.eqCommutative third = true) ∧
    ∀ first second : Expr α, first.eqCommutative second = true →
      first.nodeCount = second.nodeCount ∧ first.depth = second.depth ∧
        first.variableNames = second.variableNames := by
  simp only [Expr.eqCommutative_iff_matches]
  refine ⟨?_, fun _ => .refl, fun _ _ => .symm, fun _ _ _ => .trans, ?_⟩
  · intro first second nanFree
    exact ⟨Expr.Matches.exchanges, .of_exchanges nanFree⟩
  · intro first second both
    rw [Expr.nodeCount_eq_size, Expr.nodeCount_eq_size]
    exact ⟨both.size_eq, both.depth_eq, Expr.variableNames_eq_of_mem both.mem_variableNames_iff⟩

/-- The product `(x + 0) * 2`. -/
def shiftedProduct : Expr Float :=
  .mul (.add (.var "x") (.num 0)) (.num 2)

/-- The product `2 * (-0 + x)`, with both operators crossed and the other zero. -/
def crossedProduct : Expr Float :=
  .mul (.num 2) (.add (.num (-0.0)) (.var "x"))

theorem eqCommutative_iff_exchanges_zeros :
    shiftedProduct.NaNFree ∧ shiftedProduct.eqCommutative crossedProduct = true ∧
      ReflTransGen Expr.ExchangesTo shiftedProduct crossedProduct ∧
      shiftedProduct.eqCommutative shiftedProduct = true ∧
      crossedProduct.eqCommutative shiftedProduct = true ∧
      crossedProduct.eqCommutative crossedProduct = true ∧
      shiftedProduct.nodeCount = crossedProduct.nodeCount ∧
      shiftedProduct.depth = crossedProduct.depth ∧
      shiftedProduct.variableNames = crossedProduct.variableNames := by
  have nanFree : shiftedProduct.NaNFree := by
    refine Expr.nanFree_binary.mpr ⟨Expr.nanFree_binary.mpr ⟨Expr.nanFree_var "x", ?_⟩, ?_⟩
    · exact Expr.nanFree_num.mpr (by decide +kernel)
    · exact Expr.nanFree_num.mpr (by decide +kernel)
  have equal : shiftedProduct.eqCommutative crossedProduct = true := by decide +kernel
  obtain ⟨exchanges, reflexive, symmetric, transitive, sizes⟩ :=
    eqCommutative_iff_exchanges (α := Float)
  have back := symmetric _ _ equal
  exact ⟨nanFree, equal, (exchanges _ _ nanFree).mp equal, reflexive _ nanFree, back,
    transitive _ _ _ back equal, sizes _ _ equal⟩

end Calculator
