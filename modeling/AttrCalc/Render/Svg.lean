import AttrCalc.Render.Outline

/-!
# SVG drawings

A drawing places the nodes of an outline on levels below one another.  A node gets at least the
width of its text and at least that of all its children together; the children are placed side by
side, centred under it.  A unit of width is a character of the text.

## Main definitions

* `Svg.extents`, `Svg.centers` : the widths and the horizontal positions of the nodes.
* `Svg.render` : the drawing of an outline.
-/

namespace AttrCalc

/-- The text of a node in a drawing. -/
def Node.caption (n : Node) : String :=
  n.label.text ++ " val=" ++ Decimal.valueText n.value

namespace Svg

/-! ### Layout -/

/-- The bytes that the text of a node takes. -/
def captionSize (n : Node) : Nat :=
  n.caption.utf8ByteSize

/-- The widths of nodes together. -/
def total (extents : Array Nat) : List Nat → Nat
  | [] => 0
  | i :: is => extents.getD i 0 + total extents is

/-- The widths of the nodes.  The last node comes first, so that children come before parents. -/
def extents (t : Outline Node) : Array Nat :=
  t.nodes.size.foldRev
    (fun i h extents =>
      let n := t.nodes[i]
      extents.setIfInBounds i (max (captionSize n.value + 1) (total extents n.children)))
    (Array.replicate t.nodes.size 0)

/-- Places nodes side by side from `x` on. -/
def placeRow (extents centers : Array Nat) : (x : Nat) → List Nat → Array Nat
  | _, [] => centers
  | x, i :: is =>
    let extent := extents.getD i 0
    placeRow extents (centers.setIfInBounds i (x + extent / 2)) (x + extent) is

/-- The horizontal positions of the nodes.  Parents come before children. -/
def centers (t : Outline Node) (extents : Array Nat) : Array Nat :=
  t.nodes.size.fold
    (fun i h centers =>
      let children := t.nodes[i].children
      placeRow extents centers (centers.getD i 0 - total extents children / 2) children)
    ((Array.replicate t.nodes.size 0).setIfInBounds 0 (extents.getD 0 0 / 2))

/-- A horizontal position in the drawing. -/
def scaleX (x : Nat) : Nat := 10 * x + 10

/-- A level in the drawing. -/
def scaleY (y : Nat) : Nat := 35 * y + 25

/-! ### Text -/

/-- A character in the text of an element or in an attribute. -/
def escape (c : Char) : String :=
  match c with
  | '"' => "&quot;"
  | '\'' => "&apos;"
  | '&' => "&amp;"
  | '<' => "&lt;"
  | '>' => "&gt;"
  | c => String.singleton c

/-- An attribute of an element, with a number. -/
def numberField (name : String) (value : Nat) : String :=
  " " ++ name ++ "=\"" ++ toString value ++ "\""

/-- The style of a text.  Nodes with a tag are set in bold. -/
def style (n : Node) : String :=
  if n.tag?.isSome then "font-family: 'Courier'; font-weight: bold; font-style: normal"
  else "font-family: 'Courier'; font-style: normal"

/-- The text of a node, centred at `x`. -/
def textElement (n : Node) (x y : Nat) : String :=
  "\n  <text" ++ numberField "x" (scaleX x - 5 * captionSize n) ++ numberField "y" (scaleY y) ++
    " style=\"" ++ style n ++ "\">" ++ String.join (n.caption.toList.map escape) ++ "</text>"

/-- The line from a node at `x` up to its parent at `parentX`. -/
def lineElement (parentX parentY x y : Nat) : String :=
  "\n  <line" ++ numberField "x1" (scaleX parentX) ++ numberField "y1" (scaleY parentY + 10) ++
    numberField "x2" (scaleX x) ++ numberField "y2" (scaleY y - 10) ++ " stroke=\"black\"></line>"

/-- The drawing of an outline: a white ground, then the nodes in post-order, each with the line to
its parent. -/
def render (t : Outline Node) : String :=
  let extents := extents t
  let centers := centers t extents
  let levels := t.levels
  let size := numberField "width" (scaleX (extents.foldl max 0)) ++
    numberField "height" (scaleY (levels.foldl max 0 + 1))
  let element (i : Nat) (n : TreeNode Nat Node) : String :=
    textElement n.value (centers.getD i 0) (levels.getD i 0) ++
      (match n.parent? with
        | some p =>
          lineElement (centers.getD p 0) (levels.getD p 0) (centers.getD i 0) (levels.getD i 0)
        | none => "")
  "<?xml version=\"1.0\" encoding=\"UTF-8\" ?>\n" ++
    "<svg xmlns=\"http://www.w3.org/2000/svg\" version=\"1.1\" lang=\"en\"" ++ size ++ ">" ++
    "\n  <rect" ++ numberField "x" 0 ++ numberField "y" 0 ++ size ++ " fill=\"white\"></rect>" ++
    String.join (t.postOrder.filterMap fun i => t.nodes[i]?.map (element i)) ++ "</svg>"

end Svg

end AttrCalc
