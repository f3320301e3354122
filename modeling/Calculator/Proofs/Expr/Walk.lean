import Calculator.Expr.Rpn
import Calculator.Proofs.Expr.PostOrder

/-!
# Walks visit every node once

A walk through an expression comes to an end. Until then it gives the node at each address that
the expression has, once, and no other: what is below a node before it, and what is on the left
of a node before what is on the right. Labels in that order are enough to build the expression
again.
-/

set_option autoImplicit false

namespace Calculator

variable {α : Type}

/-! ## Ends -/

namespace PostOrder

/-- Asked again and again, a walk gives some places and then no more. -/
inductive Gives : PostOrder α → List (Place α) → Prop where
  | ended {walk : PostOrder α} : walk.next? = none → Gives walk []
  | next {walk rest : PostOrder α} {place : Place α} {places : List (Place α)} :
      walk.next? = some (place, rest) → Gives rest places → Gives walk (place :: places)

private theorem gives_places (walk : PostOrder α) : walk.Gives walk.places := by
  -- Each place given lowers what is still pending.
  induction bound : walk.pending using Nat.strongRecOn generalizing walk with
  | ind pending ih =>
      cases found : walk.next? with
      | none =>
          rw [places_of_ended found]
          exact .ended found
      | some given =>
          obtain ⟨place, rest⟩ := given
          rw [places_of_next? found]
          have fewer : rest.pending < pending := bound ▸ pending_lt_of_next? found
          exact .next found (ih rest.pending fewer rest rfl)

end PostOrder

/-! ## Addresses -/

namespace Expr

/-- An operand of an operation. -/
def operand? : Side → Expr α → Option (Expr α)
  | .left, .binary _ lhs _ => some lhs
  | .right, .binary _ _ rhs => some rhs
  | _, _ => none

/-- The node at an address, if the expression has one there. -/
def nodeAt? (root : Expr α) : Address → Option (Expr α)
  | [] => some root
  | side :: address => (root.nodeAt? address).bind (operand? side)

private theorem nodeAt?_append (root : Expr α) (below address : Address) :
    root.nodeAt? (below ++ address) = (root.nodeAt? address).bind (·.nodeAt? below) := by
  induction below with
  | nil => simp [nodeAt?]
  | cons side below ih => rw [List.cons_append, nodeAt?, ih, Option.bind_assoc]; rfl

private theorem nodeAt?_concat (root : Expr α) (below : Address) (side : Side) :
    root.nodeAt? (below.concat side) = (root.operand? side).bind (·.nodeAt? below) := by
  rw [List.concat_eq_append, nodeAt?_append, nodeAt?, nodeAt?, Option.bind_some]

private theorem nodeAt?_leaf {leaf : Expr α} (isLeaf : ∀ side, leaf.operand? side = none)
    {below : Address} {node : Expr α} :
    leaf.nodeAt? below = some node ↔ node = leaf ∧ below = [] := by
  rcases List.eq_nil_or_concat below with rfl | ⟨above, side, rfl⟩
  · simp [nodeAt?, eq_comm]
  · rw [nodeAt?_concat, isLeaf]
    simp

/-- The places of an expression at an address are its nodes, each with the way to it. -/
theorem mem_placesAt {expr : Expr α} {address : Address} {place : Place α} :
    place ∈ expr.placesAt address ↔
      ∃ below, place.address = below ++ address ∧ expr.nodeAt? below = some place.node := by
  obtain ⟨placeAddress, node⟩ := place
  induction expr generalizing address with
  | num value =>
      have isLeaf (side : Side) : (num value).operand? side = none := by cases side <;> rfl
      simp [placesAt, nodeAt?_leaf isLeaf]
  | var name =>
      have isLeaf (side : Side) : (var name : Expr α).operand? side = none := by
        cases side <;> rfl
      simp [placesAt, nodeAt?_leaf isLeaf]
  | binary operator lhs rhs lhsIH rhsIH =>
      simp only [placesAt, List.mem_append, List.mem_singleton, Place.mk.injEq, lhsIH, rhsIH]
      constructor
      · rintro (⟨below, rfl, found⟩ | ⟨below, rfl, found⟩ | ⟨rfl, rfl⟩)
        · exact ⟨below.concat .left, by simp, by rwa [nodeAt?_concat]⟩
        · exact ⟨below.concat .right, by simp, by rwa [nodeAt?_concat]⟩
        · exact ⟨[], rfl, rfl⟩
      · rintro ⟨below, rfl, found⟩
        rcases List.eq_nil_or_concat below with rfl | ⟨above, side, rfl⟩
        · exact .inr (.inr ⟨rfl, (Option.some.inj found).symm⟩)
        · rw [nodeAt?_concat] at found
          cases side with
          | left => exact .inl ⟨above, by simp, found⟩
          | right => exact .inr (.inl ⟨above, by simp, found⟩)

end Expr

/-! ## Order -/

/-- A node stands below another one, or they stand on the left and on the right of a node. -/
inductive Address.Before : Address → Address → Prop where
  | below {way address : Address} : way ≠ [] → Before (way ++ address) address
  | apart {lhsWay rhsWay address : Address} :
      Before (lhsWay ++ .left :: address) (rhsWay ++ .right :: address)

private theorem Address.Before.ne {first second : Address} (before : Before first second) :
    first ≠ second := by
  intro same
  cases before with
  | below nonempty => exact nonempty (List.append_left_eq_self.mp same)
  | apart =>
      have turns := List.append_inj_right' same (by simp)
      cases turns

namespace Expr

private theorem pairwise_placesAt (expr : Expr α) (address : Address) :
    (expr.placesAt address).Pairwise fun first second =>
      Address.Before first.address second.address := by
  induction expr generalizing address with
  | num | var => exact List.pairwise_singleton _ _
  | binary operator lhs rhs lhsIH rhsIH =>
      have operandFirst {operand : Expr α} {side : Side} {place : Place α}
          (member : place ∈ operand.placesAt (side :: address)) :
          Address.Before place.address address := by
        obtain ⟨below, reached, _⟩ := mem_placesAt.mp member
        rw [reached, List.append_cons below side address]
        exact .below (by simp)
      have rhsThenRoot : (rhs.placesAt (.right :: address) ++
          [Place.mk address (binary operator lhs rhs)]).Pairwise fun first second =>
            Address.Before first.address second.address := by
        refine List.pairwise_append.mpr ⟨rhsIH _, List.pairwise_singleton _ _, ?_⟩
        intro place inRhs root isRoot
        cases List.mem_singleton.mp isRoot
        exact operandFirst inRhs
      refine List.pairwise_append.mpr ⟨lhsIH _, rhsThenRoot, ?_⟩
      intro first inLhs second inRest
      rcases List.mem_append.mp inRest with inRhs | isRoot
      · obtain ⟨lhsWay, lhsReached, _⟩ := mem_placesAt.mp inLhs
        obtain ⟨rhsWay, rhsReached, _⟩ := mem_placesAt.mp inRhs
        rw [lhsReached, rhsReached]
        exact .apart
      · cases List.mem_singleton.mp isRoot
        exact operandFirst inLhs

private theorem mem_postOrderPlaces {root : Expr α} {place : Place α} :
    place ∈ root.postOrderPlaces ↔ root.nodeAt? place.address = some place.node := by
  rw [postOrderPlaces_eq, mem_placesAt]
  simp

private theorem mem_postOrder {root node : Expr α} :
    node ∈ root.postOrder ↔ ∃ address, root.nodeAt? address = some node := by
  rw [postOrder, List.mem_map]
  constructor
  · rintro ⟨place, given, rfl⟩
    exact ⟨place.address, mem_postOrderPlaces.mp given⟩
  · rintro ⟨address, found⟩
    exact ⟨⟨address, node⟩, mem_postOrderPlaces.mpr found, rfl⟩

/-! ## Labels -/

section Labels

variable [One α] [Neg α]

private theorem foldlM_stackItem?_postOrder (expr : Expr α) (stack : List (Expr α)) :
    (expr.postOrder.map label).foldlM stackItem? stack = some (expr :: stack) := by
  induction expr generalizing stack with
  | num value => rw [postOrder_num]; rfl
  | var name => rw [postOrder_var]; rfl
  | binary operator lhs rhs lhsIH rhsIH =>
      rw [postOrder_binary, List.map_append, List.foldlM_append, lhsIH, Option.bind_eq_bind,
        Option.bind_some, List.map_append, List.foldlM_append, rhsIH]
      rfl

private theorem ofRpn?_rpn (expr : Expr α) : ofRpn? expr.rpn = some expr := by
  rw [ofRpn?, rpn, foldlM_stackItem?_postOrder]

end Labels

end Expr

/-- A walk gives the node at each address once, below before above and left before right, and
then ends. So an operation counts one node more than its operands, the listed names are those
of the variables, and an expression is built again from its labels. -/
theorem walk_gives_each_node_once [One α] [Neg α] (root : Expr α) :
    (PostOrder.start root).Gives root.postOrderPlaces ∧
    (∀ place, place ∈ root.postOrderPlaces ↔ root.nodeAt? place.address = some place.node) ∧
    (root.postOrderPlaces.map Place.address).Nodup ∧
    (root.postOrderPlaces.map Place.address).Pairwise Address.Before ∧
    (∀ operator (lhs rhs : Expr α),
      (Expr.binary operator lhs rhs).nodeCount = lhs.nodeCount + rhs.nodeCount + 1) ∧
    (∀ name, name ∈ root.variableNames ↔
      ∃ address, root.nodeAt? address = some (.var name)) ∧
    Expr.ofRpn? root.rpn = some root := by
  have ordered : (root.postOrderPlaces.map Place.address).Pairwise Address.Before := by
    rw [List.pairwise_map, Expr.postOrderPlaces_eq]
    exact root.pairwise_placesAt []
  refine ⟨PostOrder.gives_places _, fun _ => Expr.mem_postOrderPlaces, ?nodup, ordered,
    ?count, ?names, Expr.ofRpn?_rpn root⟩
  case nodup => exact ordered.imp Address.Before.ne
  case count =>
    intro operator lhs rhs
    simp only [Expr.nodeCount_eq_size, Expr.size]
  case names =>
    intro name
    rw [Expr.mem_variableNames, Expr.mem_postOrder]

/-- Equal operands are told apart by where they stand: `(x * x) + (x * x)` has seven nodes. -/
example :
    let square : Expr Int := .mul (.var "x") (.var "x")
    (Expr.add square square).postOrderPlaces.map Place.address =
      [[.left, .left], [.right, .left], [.left],
        [.left, .right], [.right, .right], [.right], []] := by
  simp only [Expr.postOrderPlaces_eq]
  rfl

end Calculator
