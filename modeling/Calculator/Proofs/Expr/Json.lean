import Calculator.Expr.Json
import Calculator.Number.Double
import Calculator.Proofs.Expr.PostOrder

/-!
# Expressions read back from documents

The document of an expression has a tag for each node. It is read as the expression that it was
written for, whatever the names in it are, unless a number somewhere is not finite: then it is
not read at all.
-/

set_option autoImplicit false

namespace Calculator

variable {α : Type} [Numeral α]

namespace Expr

/-- Every number in the expression is finite. -/
def IsFinite (expr : Expr α) : Prop :=
  ∀ value, num value ∈ expr.postOrder → Numeral.isFinite value = true

private theorem isFinite_num {value : α} :
    (num value).IsFinite ↔ Numeral.isFinite value = true := by
  simp [IsFinite, postOrder_num]

private theorem isFinite_var (name : String) : (var name : Expr α).IsFinite := by
  simp [IsFinite, postOrder_var]

private theorem isFinite_binary {operator : Operator} {lhs rhs : Expr α} :
    (binary operator lhs rhs).IsFinite ↔ lhs.IsFinite ∧ rhs.IsFinite := by
  simp only [IsFinite, postOrder_binary, List.mem_append, List.mem_singleton, reduceCtorEq,
    or_false, or_imp, forall_and]

/-- The documents with one tag for each node. -/
inductive Tagged : Expr α → Json α → Prop where
  | finite {value : α} :
      Numeral.isFinite value = true → Tagged (.num value) (.object [("Num", .number value)])
  | notFinite {value : α} :
      Numeral.isFinite value = false → Tagged (.num value) (.object [("Num", .null)])
  | var (name : String) : Tagged (.var name) (.object [("Var", .string name)])
  | binary (operator : Operator) {lhs rhs : Expr α} {lhsDocument rhsDocument : Json α} :
      Tagged lhs lhsDocument → Tagged rhs rhsDocument →
      Tagged (.binary operator lhs rhs)
        (.object [("BinOp", .array [.string operator.name, lhsDocument, rhsDocument])])

/-- Every expression has one document, the one that is written. -/
theorem tagged_iff {expr : Expr α} {document : Json α} :
    Tagged expr document ↔ document = expr.toJson := by
  constructor
  · intro tagged
    induction tagged with
    | finite isFinite => rw [toJson, Json.ofNumber, if_pos isFinite]
    | notFinite unwritten => rw [toJson, Json.ofNumber, if_neg (by simp [unwritten])]
    | var name => rw [toJson]
    | binary operator _ _ lhsIH rhsIH => rw [toJson, lhsIH, rhsIH]
  · intro same
    subst same
    induction expr with
    | num value =>
        cases finite : Numeral.isFinite value with
        | true =>
            rw [toJson, Json.ofNumber, if_pos finite]
            exact .finite finite
        | false =>
            rw [toJson, Json.ofNumber, if_neg (by simp [finite])]
            exact .notFinite finite
    | var name => exact .var name
    | binary operator lhs rhs lhsIH rhsIH => exact .binary operator lhsIH rhsIH

omit [Numeral α] in
private theorem ofJson?_binary (operator : Operator) (lhs rhs : Json α) :
    ofJson? (.object [("BinOp", .array [.string operator.name, lhs, rhs])]) =
      (ofJson? lhs).bind fun first =>
        (ofJson? rhs).bind fun second => some (binary operator first second) := by
  rw [ofJson?, Operator.ofJson?, Operator.ofName?_name]
  rfl

/-- The document of an expression is read as that expression if all numbers are finite, and not
at all if one is not. -/
theorem Tagged.ofJson?_eq_some {expr : Expr α} {document : Json α}
    (tagged : Tagged expr document) {other : Expr α} :
    ofJson? document = some other ↔ other = expr ∧ expr.IsFinite := by
  induction tagged generalizing other with
  | @finite value finite =>
      have read : ofJson? (.object [("Num", .number value)]) = some (Expr.num value) := rfl
      rw [read, Option.some.injEq, eq_comm, isFinite_num]
      exact (and_iff_left finite).symm
  | @notFinite value unwritten =>
      have refused : ofJson? (.object [("Num", .null)] : Json α) = none := rfl
      simp [refused, isFinite_num, unwritten]
  | var name =>
      have read : ofJson? (.object [("Var", .string name)]) = some (Expr.var name : Expr α) := rfl
      rw [read, Option.some.injEq, eq_comm]
      exact (and_iff_left (isFinite_var name)).symm
  | @binary operator lhs rhs _ _ _ _ lhsIH rhsIH =>
      simp only [ofJson?_binary, Option.bind_eq_some_iff, lhsIH, rhsIH, Option.some.injEq,
        isFinite_binary]
      constructor
      · intro read
        obtain ⟨_, ⟨rfl, lhsFinite⟩, _, ⟨rfl, rhsFinite⟩, same⟩ := read
        exact ⟨same.symm, lhsFinite, rhsFinite⟩
      · intro same
        obtain ⟨rfl, lhsFinite, rhsFinite⟩ := same
        exact ⟨lhs, ⟨rfl, lhsFinite⟩, rhs, ⟨rfl, rhsFinite⟩, rfl⟩

end Expr

/-- The document of an expression has one tag for each node. It is read if and only if all
numbers are finite, and then as the very expression, which no other has for its document. -/
theorem documents_read_back {α : Type} [Numeral α] (expr : Expr α) :
    (∀ document, expr.toJson = document ↔ Expr.Tagged expr document) ∧
    (∀ other, Expr.ofJson? expr.toJson = some other ↔ other = expr ∧ expr.IsFinite) ∧
    (expr.IsFinite → ∀ other : Expr α, other.toJson = expr.toJson → other = expr) := by
  have tagged (expr : Expr α) : Expr.Tagged expr expr.toJson := Expr.tagged_iff.mpr rfl
  refine ⟨fun document => ?_, fun other => (tagged expr).ofJson?_eq_some, ?_⟩
  · rw [Expr.tagged_iff, eq_comm]
  · intro finite other same
    have read := (tagged expr).ofJson?_eq_some.mpr ⟨rfl, finite⟩
    rw [← same] at read
    exact ((tagged other).ofJson?_eq_some.mp read).1.symm

/-- The quotient of a negative zero and of a variable whose name is the tag of numbers. -/
def taggedQuotient : Expr Float :=
  .div (.num (-0.0)) (.mul (.var "Num") (.var ""))

theorem documents_read_back_quotient :
    taggedQuotient.IsFinite ∧ Expr.ofJson? taggedQuotient.toJson = some taggedQuotient ∧
      ∀ other : Expr Float, other.toJson = taggedQuotient.toJson → other = taggedQuotient := by
  have zero : Numeral.isFinite (-0.0 : Float) = true := by decide +kernel
  have finite : taggedQuotient.IsFinite :=
    Expr.isFinite_binary.mpr ⟨Expr.isFinite_num.mpr zero,
      Expr.isFinite_binary.mpr ⟨Expr.isFinite_var "Num", Expr.isFinite_var ""⟩⟩
  obtain ⟨-, reads, injective⟩ := documents_read_back taggedQuotient
  exact ⟨finite, (reads _).mpr ⟨rfl, finite⟩, injective finite⟩

end Calculator
