import CallFlow.Graph
import CallFlow.Json

namespace CallFlow

def Node.toJson (node : Node) : Json :=
  .obj [("id", .str node.id), ("type", .str node.kind.tag),
    ("display_name", .str node.displayName), ("label", .str node.label)]

def MergedEdge.toJson (edge : MergedEdge) : Json :=
  .obj [("from", .str edge.source), ("to", .str edge.target), ("labels", .strings edge.labels),
    ("style", .str edge.style.name)]

/-- The source is left out if it is not known. -/
def Graph.toJson (graph : Graph) : Json :=
  .obj ((graph.source.toList.map fun source => ("source", .str source)) ++
    [("nodes", .arr (graph.nodes.map Node.toJson)),
     ("edges", .arr (graph.edges.map MergedEdge.toJson))])

end CallFlow
