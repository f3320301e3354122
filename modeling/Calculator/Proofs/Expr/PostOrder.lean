import Calculator.Expr.PostOrder

/-!
# What a walk gives

A walk gives the nodes that the structure of an expression says, in that order: those of
the left operand, those of the right one, and the operation itself.
-/

set_option autoImplicit false

namespace Calculator

variable {α : Type}

/-- The nodes of an expression at an address, in the post-order of its structure. -/
def Expr.placesAt : Expr α → Address → List (Place α)
  | .num value, address => [⟨address, .num value⟩]
  | .var name, address => [⟨address, .var name⟩]
  | .binary operator lhs rhs, address =>
      lhs.placesAt (.left :: address) ++
        (rhs.placesAt (.right :: address) ++ [⟨address, .binary operator lhs rhs⟩])

namespace PostOrder

/-- The node given last is neither at an address nor below it. -/
def Outside (last : Option Address) (address : Address) : Prop :=
  ∀ given, last = some given → ¬address <:+ given

private theorem Outside.cons {last : Option Address} {address : Address}
    (outside : Outside last address) (side : Side) : Outside last (side :: address) :=
  fun given same below => outside given same ((List.suffix_cons side address).trans below)

private theorem outside_right (address : Address) :
    Outside (some (Side.left :: address)) (.right :: address) := by
  intro given same below
  cases same
  cases (List.IsSuffix.eq_of_length below rfl)

private theorem Outside.ne {last : Option Address} {address : Address}
    (outside : Outside last address) : last ≠ some (.right :: address) :=
  fun same => outside _ same (List.suffix_cons _ _)

theorem places_of_next? {walk rest : PostOrder α} {place : Place α}
    (given : walk.next? = some (place, rest)) : walk.places = place :: rest.places := by
  rw [places]
  split
  next ended =>
    rw [ended] at given
    cases given
  next found =>
    rw [found] at given
    cases given
    rfl

theorem places_of_ended {walk : PostOrder α} (ended : walk.next? = none) : walk.places = [] := by
  rw [places]
  split
  next => rfl
  next found =>
    rw [found] at ended
    cases ended

private theorem places_congr {first second : PostOrder α} (same : first.next? = second.next?) :
    first.places = second.places := by
  cases given : second.next? with
  | none => rw [places_of_ended given, places_of_ended (same.trans given)]
  | some next => rw [places_of_next? given, places_of_next? (same.trans given)]

/-- A walk gives the nodes of the expression on top of its stack and goes on below it,
if it has not given any of them. -/
theorem places_cons (node : Expr α) (address : Address) (below : List (Place α))
    {last : Option Address} (outside : Outside last address) :
    places ⟨⟨address, node⟩ :: below, last⟩ =
      node.placesAt address ++ places ⟨below, some address⟩ := by
  induction node generalizing address below last with
  | num | var => exact places_of_next? rfl
  | binary operator lhs rhs lhsIH rhsIH =>
      -- Going down to the left operand gives no node, so it changes no list of places.
      have descends : next? ⟨⟨address, .binary operator lhs rhs⟩ :: below, last⟩ =
          next? ⟨⟨.left :: address, lhs⟩ :: ⟨.right :: address, rhs⟩ ::
            ⟨address, .binary operator lhs rhs⟩ :: below, last⟩ := by
        simp only [next?, descend, outside.ne, if_false]
      have returns : next? ⟨⟨address, .binary operator lhs rhs⟩ :: below,
          some (.right :: address)⟩ =
            some (⟨address, .binary operator lhs rhs⟩, ⟨below, some address⟩) := by
        simp only [next?, descend, if_true]
      rw [places_congr descends, lhsIH _ _ (outside.cons .left), rhsIH _ _ (outside_right address),
        places_of_next? returns, Expr.placesAt, List.append_assoc, List.append_assoc]
      rfl

end PostOrder

namespace Expr

theorem postOrderPlaces_eq (root : Expr α) : root.postOrderPlaces = root.placesAt [] := by
  have outside : PostOrder.Outside none [] := fun _ same => by cases same
  rw [postOrderPlaces, PostOrder.start, PostOrder.places_cons root [] [] outside,
    PostOrder.places_of_ended rfl, List.append_nil]

private theorem map_node_placesAt (expr : Expr α) (address : Address) :
    (expr.placesAt address).map Place.node = expr.postOrder := by
  rw [postOrder, postOrderPlaces_eq]
  induction expr generalizing address with
  | num | var => rfl
  | binary operator lhs rhs lhsIH rhsIH =>
      simp only [placesAt, List.map_append]
      rw [lhsIH, rhsIH, lhsIH [.left], rhsIH [.right]]
      rfl

theorem postOrder_num (value : α) : (num value).postOrder = [num value] :=
  (map_node_placesAt (num value) []).symm

theorem postOrder_var (name : String) : (var name : Expr α).postOrder = [var name] :=
  (map_node_placesAt (var name) []).symm

theorem postOrder_binary (operator : Operator) (lhs rhs : Expr α) :
    (binary operator lhs rhs).postOrder =
      lhs.postOrder ++ (rhs.postOrder ++ [binary operator lhs rhs]) := by
  rw [← map_node_placesAt _ [], placesAt, List.map_append, List.map_append, map_node_placesAt,
    map_node_placesAt]
  rfl

theorem nodeCount_eq_size (expr : Expr α) : expr.nodeCount = expr.size := by
  induction expr with
  | num value => rw [nodeCount, postOrder_num, List.length_singleton, size]
  | var name => rw [nodeCount, postOrder_var, List.length_singleton, size]
  | binary operator lhs rhs lhsIH rhsIH =>
      rw [nodeCount] at lhsIH rhsIH
      simp only [nodeCount, postOrder_binary, List.length_append, List.length_singleton, size,
        lhsIH, rhsIH, Nat.add_assoc]

/-! ## Variables -/

theorem mem_variableNames {root : Expr α} {name : String} :
    name ∈ root.variableNames ↔ var name ∈ root.postOrder := by
  have isVar (node : Expr α) : node.var? = some name ↔ node = var name := by
    cases node <;> simp [var?]
  simp [variableNames, NameMap.mem_names_ofList, List.mem_filterMap, isVar]

theorem not_mem_variableNames_num {value : α} {name : String} :
    name ∉ (num value).variableNames := by
  simp [mem_variableNames, postOrder_num]

theorem mem_variableNames_var {name other : String} :
    name ∈ (var other : Expr α).variableNames ↔ name = other := by
  simp [mem_variableNames, postOrder_var]

theorem mem_variableNames_binary {operator : Operator} {lhs rhs : Expr α} {name : String} :
    name ∈ (binary operator lhs rhs).variableNames ↔
      name ∈ lhs.variableNames ∨ name ∈ rhs.variableNames := by
  simp [mem_variableNames, postOrder_binary]

theorem variableNames_var_ne_nil (name : String) : (var name : Expr α).variableNames ≠ [] :=
  List.ne_nil_of_mem (mem_variableNames_var.mpr rfl)

theorem variableNames_binary_eq_nil {operator : Operator} {lhs rhs : Expr α} :
    (binary operator lhs rhs).variableNames = [] ↔
      lhs.variableNames = [] ∧ rhs.variableNames = [] := by
  simp only [List.eq_nil_iff_forall_not_mem, mem_variableNames_binary, not_or, forall_and]

end Expr

end Calculator
