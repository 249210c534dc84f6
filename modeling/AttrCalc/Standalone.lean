import AttrCalc.Program
import AttrCalc.Render.Svg

/-!
# Runs on their own

The surroundings of a run where nothing else is installed: graphs are printed here, trees are
outlines, which are drawn here, and there is no program that draws graphs.  The system writes every
file that it does not refuse.

## Main definitions

* `Surroundings.standalone` : these surroundings.
-/

namespace AttrCalc

/-- The text for a drawing that the system refuses to write. -/
def drawingNotWritten (e : FileError) : String :=
  "LayouterError \x7b description: \"IoError\", io_error: Some(" ++ e.record ++ ") \x7d"

namespace Surroundings

/-- Prints graphs and draws outlines, and fails to find a program that draws graphs. -/
def standalone (refusal? : Path → Option FileError) : Surroundings where
  refusal? path _ := (refusal? path).map FileError.text
  print := Dot.print
  picture _ _ := .error FileError.notFound.text
  trees := Outline.store Node
  layout t path :=
    match refusal? path with
    | none => .ok (encodeText (Svg.render t))
    | some refusal => .error (drawingNotWritten refusal)

end Surroundings

end AttrCalc
