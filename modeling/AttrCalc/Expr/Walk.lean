import AttrCalc.Expr.Basic

/-!
# Walking an expression

All listings go through the nodes of an expression in pre-order, each with its level.  A chain of
operations makes a tree as deep as the chain is long, so the walk keeps the subtrees that are still
to come on a stack of its own.

## Main definitions

* `Expr.levels` : the subtrees in pre-order with their levels, the root on level 0.
* `Expr.listing` : a line for each node, indented by its level.
-/

namespace AttrCalc

/-- The number of nodes of the trees on a stack, whatever stands beside each of them. -/
def stackSize {κ : Type} : List (κ × Expr) → Nat
  | [] => 0
  | (_, e) :: stack => e.size + stackSize stack

/-- The stack after its first tree is visited: the subtrees below come first, one level deeper. -/
def Expr.pushBelow (level : Nat) (e : Expr) (stack : List (Nat × Expr)) : List (Nat × Expr) :=
  match e with
  | .atom .. => stack
  | .group _ _ inner => (level + 1, inner) :: stack
  | .binary _ _ _ left right => (level + 1, left) :: (level + 1, right) :: stack

theorem Expr.pushBelow_eq (level : Nat) (e : Expr) (stack : List (Nat × Expr)) :
    e.pushBelow level stack = e.children.map (level + 1, ·) ++ stack := by
  cases e <;> rfl

theorem stackSize_pushBelow_lt (level : Nat) (e : Expr) (stack : List (Nat × Expr)) :
    stackSize (e.pushBelow level stack) < stackSize ((level, e) :: stack) := by
  cases e <;> simp [Expr.pushBelow, stackSize, Expr.size]
  omega

/-- Visits the trees on the stack.  The visited ones are kept in reverse. -/
def walk (stack visited : List (Nat × Expr)) : List (Nat × Expr) :=
  match stack with
  | [] => visited.reverse
  | (level, e) :: stack => walk (e.pushBelow level stack) ((level, e) :: visited)
termination_by stackSize stack
decreasing_by exact stackSize_pushBelow_lt level e stack

namespace Expr

/-- The subtrees in pre-order with their levels. -/
def levels (e : Expr) : List (Nat × Expr) :=
  walk [(0, e)] []

/-- The subtrees in pre-order. -/
def subtrees (e : Expr) : List Expr :=
  e.levels.map (·.2)

end Expr

/-- The line of a node: two blanks for each level, label, tag and value. -/
def Node.line (level : Nat) (n : Node) : String :=
  String.ofList (List.replicate (2 * level) ' ') ++ n.label.text ++ " -> " ++
    (match n.tag? with
      | some tag => "tipo=" ++ tag.text ++ " "
      | none => "") ++
    "val=" ++ Decimal.valueText n.value ++ "\n"

/-- The lines of all nodes in pre-order. -/
def Expr.listing (e : Expr) : String :=
  String.join (e.levels.map fun (level, e) => e.node.line level)

end AttrCalc
