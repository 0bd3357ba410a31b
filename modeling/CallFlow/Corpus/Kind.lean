import CallFlow.Compilation
import CallFlow.Diagram
import CallFlow.Graph.Json
import CallFlow.Text.Quoted

namespace CallFlow.Corpus

/-- What an expectation is about. -/
inductive Kind where
  | modules
  | edges
  | graph
  | diagram (format : TextFormat)
  | annotated
  | error
  deriving DecidableEq, Repr

namespace Kind

def all : List Kind :=
  [modules, edges, graph, diagram .dot, annotated, diagram .mermaid, diagram .plantUml, error]

def name : Kind → String
  | modules => "modules"
  | edges => "edges"
  | graph => "graph"
  | diagram format => format.name
  | annotated => "dot-annotated"
  | error => "error"

def named? (name : String) : Option Kind :=
  all.find? (·.name = name)

end Kind

def bracketed (members : List String) : String :=
  "[" ++ Text.join ", " members ++ "]"

def branchLine (entry : BranchEntry) : String :=
  "  branch " ++ entry.key.getD "-" ++ " " ++ bracketed entry.names ++ " -> " ++
  bracketed entry.targets

def moduleLine (module : Module) : String :=
  module.id ++ " " ++ module.kind.tag ++ " " ++ Text.quoted module.displayName ++
  (match module.payload.singleNext with
    | none => ""
    | some next => " next=" ++ next) ++
  (match module.payload.exceptionNext with
    | none => ""
    | some next => " exception=" ++ next) ++
  (if module.payload.ascendants = [] then ""
    else " ascendants=" ++ bracketed module.payload.ascendants)

def moduleLines (module : Module) : List String :=
  moduleLine module :: module.payload.branches.map branchLine

def edgeLine (edge : Edge) : String :=
  edge.source ++ " -> " ++ edge.target ++
  (match edge.label with
    | none => ""
    | some label => " " ++ Text.quoted label) ++
  (if edge.style = .exception then " (exception)" else "")

def allLines (lines : List String) : String :=
  String.join (lines.map (· ++ "\n"))

def yieldOf (compilation : Compilation) (source : String) : Kind → String
  | .modules => allLines (compilation.modules.flatMap moduleLines)
  | .edges => allLines (compilation.edges.map edgeLine)
  | .graph => compilation.graph.toJson.pretty 0 ++ "\n"
  | .diagram format => compilation.graph.draw format false
  | .annotated => (compilation.graph.withSource source).draw .dot true
  | .error => "ok\n"

/-- What is left of a document that does not compile. -/
def yieldOfFailure (failure : Failure) : Kind → String
  | .error => failure.kind.name ++ " at " ++ failure.operation ++ "\n"
  | _ => "compile failed: " ++ failure.display ++ "\n"

end CallFlow.Corpus
