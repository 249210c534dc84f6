import AttrCalc.Operator
import AttrCalc.Table.Basic

/-!
# Expressions

An expression is a tree of names, numerals, groups in parentheses and operations.  Every node
carries an identifier and a value, and all but operations a type tag.

## Main definitions

* `Atom`, `Expr` : leaves and trees.
* `Label`, `Node` : what a node shows apart from its children.
* `Expr.node`, `Expr.children` : a tree as its root node and the subtrees below.
-/

namespace AttrCalc

/-- A leaf of an expression. -/
inductive Atom where
  | num (text : String)
  | ident (name : String)
deriving DecidableEq, Repr

/-- An expression.  A group has the value of the expression inside it. -/
inductive Expr where
  | atom (id : Nat) (atom : Atom) (tag : TypeTag) (value : Float)
  | group (id : Nat) (tag : TypeTag) (inner : Expr)
  | binary (id : Nat) (op : Operator) (value : Float) (left right : Expr)

/-- What a node is. -/
inductive Label where
  | op (o : Operator)
  | group
  | ident (name : String)
  | num (text : String)
deriving DecidableEq, Repr

/-- The label of a leaf. -/
def Atom.label : Atom → Label
  | num text => .num text
  | ident name => .ident name

/-- A label as trees show it. -/
def Label.text : Label → String
  | op o => "op(" ++ String.singleton o.symbol ++ ")"
  | group => "()"
  | ident name => "id(" ++ name ++ ")"
  | num text => "num(" ++ text ++ ")"

/-- A node without its children. -/
structure Node where
  id : Nat
  label : Label
  tag? : Option TypeTag
  value : Float
deriving DecidableEq

/-- The name of a node in drawings and listings. -/
def Node.name (n : Node) : String :=
  "n" ++ toString n.id

namespace Expr

/-- The identifier of the root. -/
def id : Expr → Nat
  | atom id .. => id
  | group id .. => id
  | binary id .. => id

/-- The label of the root. -/
def label : Expr → Label
  | atom _ a .. => a.label
  | group .. => .group
  | binary _ o .. => .op o

/-- The tag of the root.  Operations have none. -/
def tag? : Expr → Option TypeTag
  | atom _ _ tag _ => some tag
  | group _ tag _ => some tag
  | binary .. => none

/-- The value of the expression. -/
def value : Expr → Float
  | atom _ _ _ value => value
  | group _ _ inner => inner.value
  | binary _ _ value .. => value

/-- The subtrees below the root, from left to right. -/
def children : Expr → List Expr
  | atom .. => []
  | group _ _ inner => [inner]
  | binary _ _ _ left right => [left, right]

/-- The root without its children. -/
def node (e : Expr) : Node :=
  ⟨e.id, e.label, e.tag?, e.value⟩

/-- Whether the root is a leaf. -/
def isLeaf (e : Expr) : Bool :=
  e.children.isEmpty

/-- The number of nodes. -/
def size : Expr → Nat
  | atom .. => 1
  | group _ _ inner => inner.size + 1
  | binary _ _ _ left right => left.size + right.size + 1

theorem size_eq (e : Expr) : e.size = (e.children.map size).foldr (· + ·) 1 := by
  cases e <;> simp [size, children, Nat.add_assoc]

end Expr

end AttrCalc
