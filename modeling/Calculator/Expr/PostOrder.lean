import Calculator.Expr.Basic
import Calculator.NameMap

/-!
# Post-order

The nodes of an expression, the left operand before the right one and both before
their operator. The walk keeps a stack of nodes that are still due and the
address of the node that it gave last. An operation on top of the stack is due
once its right operand was the last node given. Addresses tell nodes apart that
are equal as trees.

A walk ends because each step lowers `PostOrder.pending`, whatever the stack
holds.
-/

set_option autoImplicit false

namespace Calculator

/-- An operand of an operation. -/
inductive Side where
  | left
  | right
deriving DecidableEq, Repr

/-- The way from the root of an expression to a node, the last turn first. -/
abbrev Address := List Side

/-- A node of an expression with its address. -/
structure Place (α : Type) where
  address : Address
  node : Expr α
deriving DecidableEq, Repr

/-- A walk through an expression. -/
structure PostOrder (α : Type) where
  /-- The places still due, the next one on top or below it. -/
  stack : List (Place α)
  /-- The address of the node given last. -/
  last : Option Address
deriving DecidableEq, Repr

namespace Expr

variable {α : Type}

/-- The number of nodes, counted by structure: what a walk has to give at most. -/
def size : Expr α → Nat
  | .num _ | .var _ => 1
  | .binary _ lhs rhs => lhs.size + rhs.size + 1

theorem size_pos (expr : Expr α) : 0 < expr.size := by
  cases expr <;> simp [size]

end Expr

namespace PostOrder

variable {α : Type}

/-- A walk that has given nothing yet. -/
def start (root : Expr α) : PostOrder α :=
  ⟨[⟨[], root⟩], none⟩

/-- The first place due, and the stack below it, for a stack that has `node` at
`address` on top of `below`. -/
def descend (last : Option Address) :
    Expr α → Address → List (Place α) → Place α × List (Place α)
  | .num value, address, below => (⟨address, .num value⟩, below)
  | .var name, address, below => (⟨address, .var name⟩, below)
  | .binary operator lhs rhs, address, below =>
      if last = some (.right :: address) then (⟨address, .binary operator lhs rhs⟩, below)
      else
        descend last lhs (.left :: address)
          (⟨.right :: address, rhs⟩ :: ⟨address, .binary operator lhs rhs⟩ :: below)

def next? (walk : PostOrder α) : Option (Place α × PostOrder α) :=
  match walk.stack with
  | [] => none
  | top :: below =>
      let (place, stack) := descend walk.last top.node top.address below
      some (place, ⟨stack, some place.address⟩)

/-- A bound of the places that a stack still gives. An operation right below its
right operand, or below nothing once that operand was given, gives only itself. -/
def pendingAbove : Option Address → List (Place α) → Nat
  | _, [] => 0
  | above, place :: below =>
      (if above = some (.right :: place.address) then 1 else place.node.size) +
        pendingAbove (some place.address) below

/-- A bound of the places that a walk still gives. -/
def pending (walk : PostOrder α) : Nat :=
  pendingAbove walk.last walk.stack

private theorem pendingAbove_descend (last : Option Address) (node : Expr α) (address : Address)
    (below : List (Place α)) :
    pendingAbove (some (descend last node address below).1.address)
        (descend last node address below).2 + 1 ≤
      pendingAbove last (⟨address, node⟩ :: below) := by
  induction node generalizing address below with
  | num value => simp only [descend, pendingAbove, Expr.size]; split <;> omega
  | var name => simp only [descend, pendingAbove, Expr.size]; split <;> omega
  | binary operator lhs rhs lhsIH rhsIH =>
      unfold descend
      split
      next given => simp only [pendingAbove, given, if_true]; omega
      next notGiven =>
        have bound := lhsIH (.left :: address)
          (⟨.right :: address, rhs⟩ :: ⟨address, .binary operator lhs rhs⟩ :: below)
        have apart :
            some (Side.left :: address) ≠ some (Side.right :: Side.right :: address) := by simp
        have size_pos := lhs.size_pos
        simp only [pendingAbove, notGiven, apart, if_false, if_true, Expr.size] at bound ⊢
        split at bound <;> omega

theorem pending_lt_of_next? {walk rest : PostOrder α} {place : Place α}
    (given : walk.next? = some (place, rest)) : rest.pending < walk.pending := by
  obtain ⟨stack, last⟩ := walk
  cases stack with
  | nil => cases given
  | cons top below =>
      cases given
      exact pendingAbove_descend last top.node top.address below

/-- The places that a walk still gives, in order. -/
def places (walk : PostOrder α) : List (Place α) :=
  match _ : walk.next? with
  | none => []
  | some (place, rest) => place :: rest.places
termination_by walk.pending
decreasing_by exact pending_lt_of_next? (by assumption)

end PostOrder

namespace Expr

variable {α : Type}

/-- The nodes of an expression with their addresses, in post-order. -/
def postOrderPlaces (root : Expr α) : List (Place α) :=
  (PostOrder.start root).places

def postOrder (root : Expr α) : List (Expr α) :=
  root.postOrderPlaces.map Place.node

/-- The number of nodes. -/
def nodeCount (root : Expr α) : Nat :=
  root.postOrder.length

/-- The names of the variables, each once and in order. -/
def variableNames (root : Expr α) : List String :=
  (NameMap.ofList ((root.postOrder.filterMap var?).map fun name => (name, ()))).names

end Expr

end Calculator
