import CallFlow.Diagram.Arrow
import CallFlow.Diagram.Dot.Drawing
import CallFlow.Diagram.Dot.Reader

namespace CallFlow.Diagram.Dot

inductive Element where
  | node (id label shape : String)
  | edge (source target label : String) (isException : Bool)
  deriving DecidableEq, Repr

namespace Element

def ofNode (n : Node) : Element :=
  .node n.id n.label (shape n.kind)

def ofEdge (e : MergedEdge) : Element :=
  .edge e.source e.target e.label e.isException

end Element

/-- The label and the shape of a node. A shape that is not written is the default one. -/
def nodeLook? : Attributes → Option (String × String)
  | [("label", label)] => some (label, defaultShape)
  | [("label", label), ("shape", shape)] => some (label, shape)
  | _ => none

/-- Takes the label off the attributes of an edge. One that is not written is empty. -/
def takeLabel : Attributes → String × Attributes
  | ("label", label) :: rest => (label, rest)
  | rest => ("", rest)

def edgeLook? (attributes : Attributes) : Option (String × Bool) :=
  let (label, rest) := takeLabel attributes
  if rest = [] then some (label, false)
  else if rest = exceptionAttributes then some (label, true)
  else none

/-- The elements that a statement draws: one for a node or an edge, and none otherwise. A node or
an edge of another look is refused. -/
def Statement.elements? : Statement → Option (List Element)
  | .node id attributes => do
    let (label, shape) ← nodeLook? attributes
    return [.node id label shape]
  | .edge source target attributes => do
    let (label, isException) ← edgeLook? attributes
    return [.edge source target label isException]
  | .setting .. | .nodeDefaults _ | .edgeDefaults _ | .blank => some []

def readElements? (text : String) : Option (List Element) := do
  let (_, statements) ← read? text
  return (← statements.mapM Statement.elements?).flatten

def arrow? (line : List Char) : Option Arrow := do
  let (source, cs) ← scanString (← after? (indent 1) line)
  let (target, cs) ← scanString (← after? " -> " cs)
  let (attributes, cs) ← readSuffix cs
  let (_, isException) ← edgeLook? attributes
  if cs = [';'] then
    some { source, target, isException, isLabeled := attributes.any (·.1 = "label") }
  else none

end CallFlow.Diagram.Dot
