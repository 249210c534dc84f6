import AttrCalc.Expr.Walk

/-!
# DOT graphs

An expression as a directed graph in the DOT language: a statement for each node, and right behind
it one for each of its edges.

## Main definitions

* `Dot.Statement`, `Dot.statements` : the statements of the graph.
* `Dot.print`, `Dot.render` : the text of a graph, and that of an expression.
-/

namespace AttrCalc.Dot

/-- A statement of a graph.  Leaves are drawn as boxes. -/
inductive Statement where
  | node (n : Node) (isLeaf : Bool)
  | edge (parent child : Node)

/-- The label of a node: its lines are joined by `\n`, which the language reads as a break. -/
def labelText (n : Node) : String :=
  n.label.text ++ "\\nval=" ++ Decimal.valueText n.value ++
    (match n.tag? with
      | some tag => "\\ntipo=" ++ tag.text
      | none => "")

/-- A statement as it is written. -/
def Statement.text : Statement → String
  | node n isLeaf =>
    n.name ++ "[label=\"" ++ labelText n ++ "\"" ++ (if isLeaf then ",shape=\"box\"" else "") ++ "]"
  | edge parent child => parent.name ++ " -> " ++ child.name

/-- The statements of a node and of the edges to its children. -/
def statementsAt (e : Expr) : List Statement :=
  .node e.node e.isLeaf :: e.children.map fun child => .edge e.node child.node

/-- The statements of all nodes in pre-order. -/
def statements (e : Expr) : List Statement :=
  e.subtrees.flatMap statementsAt

/-- The text of a graph, a line for each statement. -/
def print (statements : List Statement) : String :=
  "digraph ast \x7b\n" ++ "\n".intercalate (statements.map ("  " ++ ·.text)) ++ "\n\x7d"

/-- The graph of an expression. -/
def render (e : Expr) : String :=
  print (statements e)

end AttrCalc.Dot
