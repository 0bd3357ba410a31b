import CallFlow.Diagram.Dot.Statement
import CallFlow.FreshName
import CallFlow.Graph

namespace CallFlow.Diagram.Dot

def defaultShape : String := "box"

def shape (kind : ModuleKind) : String :=
  if kind.isEntry then "ellipse"
  else if kind.isBranching then "diamond"
  else if kind.isTransfer then "cds"
  else if kind = .hangup then "octagon"
  else defaultShape

def nodeStatement (node : Node) : Statement :=
  let shape := shape node.kind
  .node node.id
    (("label", node.label) :: if shape = defaultShape then [] else [("shape", shape)])

def exceptionAttributes : Attributes :=
  [("color", "red"), ("fontcolor", "red"), ("style", "dashed,bold")]

def edgeStatement (edge : MergedEdge) : Statement :=
  .edge edge.source edge.target
    ((if edge.label = "" then [] else [("label", edge.label)]) ++
     (if edge.isException then exceptionAttributes else []))

/-- The identifier of the note with the source, followed by so many underscores. -/
def noteCandidate (underscores : Nat) : String :=
  "__source__" ++ String.ofList (List.replicate underscores '_')

/-- The first identifier for the note that stands for nothing in the graph. -/
def noteId (graph : Graph) : String :=
  freshName graph.shownIds noteCandidate

def noteStatement (graph : Graph) (source : String) : Statement :=
  .node (noteId graph)
    [("label", source), ("shape", "note"), ("style", "filled"), ("fillcolor", "lightyellow")]

/-- Ties the note to the first node, so that the layout keeps it near the graph. -/
def noteEdge (graph : Graph) : List Statement :=
  graph.nodes.head?.toList.map fun first =>
    .edge (noteId graph) first.id [("style", "invis")]

def header : List Statement :=
  [.setting "rankdir" "TB",
   .nodeDefaults "shape=box, style=\"rounded\", fontname=\"Helvetica\"",
   .edgeDefaults "fontname=\"Helvetica\", fontsize=10",
   .blank]

/-- The statements of a graph. The note is drawn if it is asked for and the source is known. -/
def statements (graph : Graph) (annotate : Bool) : List Statement :=
  let noted := graph.source.filter fun _ => annotate
  header ++
  graph.nodes.map nodeStatement ++
  noted.toList.map (noteStatement graph) ++
  [.blank] ++
  (if noted.isSome then noteEdge graph else []) ++
  graph.edges.map edgeStatement

def draw (graph : Graph) (annotate : Bool) : String :=
  document "ivr" (statements graph annotate)

end CallFlow.Diagram.Dot
