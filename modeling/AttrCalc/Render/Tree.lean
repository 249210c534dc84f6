import AttrCalc.Render.Outline
import AttrCalc.Text.Quoted

/-!
# Tree listings

A tree listing shows every node of an outline on a line of its own, with all its data, behind lines
that lead to its parent.

## Main definitions

* `Node.record` : the data of a node.
* `Tree.render` : the listing of an outline.
-/

namespace AttrCalc

/-- A label with its kind and its quoted text. -/
def Label.record : Label → String
  | op o => "Op(" ++ o.name ++ ")"
  | group => "Group"
  | ident name => "Id(" ++ Text.quote name ++ ")"
  | num text => "Num(" ++ Text.quote text ++ ")"

/-- A tag that may be missing. -/
def tagRecord : Option TypeTag → String
  | some .int => "Some(Int)"
  | some .real => "Some(Real)"
  | none => "None"

/-- The data of a node. -/
def Node.record (n : Node) : String :=
  "AstView \x7b id: NodeId(" ++ toString n.id ++ "), label: " ++ n.label.record ++ ", tipo: " ++
    tagRecord n.tag? ++ ", val: " ++ Decimal.valueText n.value ++ " \x7d"

namespace Tree

/-- What stands before a node, and what stands before the nodes below it. -/
structure Lead where
  own : String
  below : String

/-- What stands before the root: nothing. -/
def Lead.root : Lead :=
  ⟨"", ""⟩

/-- What stands before a child, given what stands before the children of its parent. -/
def Lead.child (before : String) (isLast : Bool) : Lead :=
  if isLast then ⟨before ++ "└── ", before ++ "    "⟩ else ⟨before ++ "├── ", before ++ "│   "⟩

/-- What stands before each of the nodes, in the order of their indices. -/
def leads (t : Outline Node) : Array Lead :=
  (Array.range t.nodes.size).foldl
    (fun leads i =>
      leads.push (match t.parent? i with
        | some p => .child (leads.getD p .root).below ((t.children p).getLast? = some i)
        | none => .root))
    #[]

/-- The listing of an outline, in pre-order. -/
def render (t : Outline Node) : String :=
  let leads := leads t
  String.join <| t.preOrder.filterMap fun i =>
    t.nodes[i]?.map fun n => (leads.getD i .root).own ++ n.value.record ++ "\n"

end Tree

end AttrCalc
