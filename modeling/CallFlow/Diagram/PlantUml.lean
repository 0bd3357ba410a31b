import CallFlow.Diagram.Naming

namespace CallFlow.Diagram.PlantUml

def startsWithDigit (word : String) : Bool :=
  word.toList.head?.any Char.isDigit

/-- The name of a state never begins with a digit. -/
def base (shown : String) : String :=
  fitWord "state" "S_" startsWithDigit shown

/-- The first six ASCII letters and digits of the identifier. -/
def fragment (id : String) : String :=
  String.ofList ((id.toList.filter Char.isAlphanum).take 6)

def nameRule : NameRule := { base, fragment }

def names (graph : Graph) : Names :=
  nameRule.names graph

def escapeDescription (text : String) : String :=
  Text.replace '\n' "\\n" (Text.replace '"' "'" text)

def escapeTransition (label : String) : String :=
  Text.replace '\n' "\\n" label

def declaration (names : Names) (id description : String) : String :=
  "state \"" ++ escapeDescription description ++ "\" as " ++ names.resolve id

def initial (names : Names) (node : Node) : String :=
  "[*] --> " ++ names.resolve node.id

def transition (names : Names) (edge : MergedEdge) : String :=
  names.resolve edge.source ++ " " ++ (if edge.isException then "-[#red,dashed]->" else "-->") ++
  " " ++ names.resolve edge.target ++
  (if edge.label = "" then "" else " : " ++ escapeTransition edge.label)

def declarations (names : Names) (graph : Graph) : List String :=
  (graph.shown Node.label).map fun (id, label) => declaration names id label

def initials (names : Names) (graph : Graph) : List String :=
  (graph.nodes.filter (·.kind.isEntry)).map (initial names)

def transitions (names : Names) (graph : Graph) : List String :=
  graph.edges.map (transition names)

def drawingLines (graph : Graph) : List String :=
  let names := names graph
  ["@startuml", "hide empty description"] ++ declarations names graph ++ initials names graph ++
  transitions names graph ++ ["@enduml"]

/-- Text fit to be stored: no byte order mark and no blank at the start. -/
def finalize (text : String) : String :=
  Text.trimLeft (Text.dropMarks text)

def draw (graph : Graph) : String :=
  finalize (String.join ((drawingLines graph).map (· ++ "\n")))

end CallFlow.Diagram.PlantUml
