import CallFlow.Diagram.Naming

namespace CallFlow.Diagram.Mermaid

/-- Words with a meaning of their own in a flowchart, in any letter case. -/
def reserved : List String :=
  ["end", "graph", "flowchart", "subgraph", "direction", "style", "linkStyle", "classDef", "class",
    "click", "call", "href", "default", "interpolate"]

def isReserved (word : String) : Bool :=
  reserved.any (Text.sameWord · word)

def base (shown : String) : String :=
  fitWord "node" "n_" isReserved shown

/-- The first six characters of the identifier, made plain. -/
def fragment (id : String) : String :=
  String.ofList ((id.toList.map wordChar).take 6)

def nameRule : NameRule := { base, fragment }

def names (graph : Graph) : Names :=
  nameRule.names graph

def escapeNode (label : String) : String :=
  Text.replace '\n' "<br/>" (Text.replace '"' "#quot;" label)

/-- A bar would end an edge's label, and a backtick would begin a text with markup. -/
def escapeEdge (label : String) : String :=
  Text.replace '\n' " "
    (Text.replace '"' "#quot;" (Text.replace '`' "'" (Text.replace '|' "¦" label)))

def margin : String := "    "

def declaration (names : Names) (id label : String) : String :=
  margin ++ names.resolve id ++ "[\"" ++ escapeNode label ++ "\"]"

def link (names : Names) (edge : MergedEdge) : String :=
  margin ++ names.resolve edge.source ++ " " ++ (if edge.isException then "-.->" else "-->") ++
  (if edge.label = "" then ""
    else "|\"" ++ escapeEdge edge.label ++ "\"|") ++
  " " ++ names.resolve edge.target

def exceptionPositions (edges : List MergedEdge) : List Nat :=
  edges.zipIdx.filterMap fun (edge, position) => if edge.isException then some position else none

def linkStyle (position : Nat) : String :=
  margin ++ "linkStyle " ++ toString position ++ " stroke:red,stroke-width:2px,color:red"

def declarations (names : Names) (graph : Graph) : List String :=
  (graph.shown Node.label).map fun (id, label) => declaration names id label

def links (names : Names) (graph : Graph) : List String :=
  graph.edges.map (link names)

def linkStyles (graph : Graph) : List String :=
  (exceptionPositions graph.edges).map linkStyle

def drawingLines (graph : Graph) : List String :=
  let names := names graph
  "flowchart TD" :: declarations names graph ++ links names graph ++ linkStyles graph

def draw (graph : Graph) : String :=
  String.join ((drawingLines graph).map (· ++ "\n"))

end CallFlow.Diagram.Mermaid
