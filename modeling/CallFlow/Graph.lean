import CallFlow.Distinct
import CallFlow.Edge
import CallFlow.Index
import CallFlow.Text

namespace CallFlow

/-- One module as it is drawn. -/
structure Node where
  id : String
  kind : ModuleKind
  displayName : String
  deriving DecidableEq, Repr

namespace Node

def ofModule (module : Module) : Node :=
  { id := module.id, kind := module.kind, displayName := module.displayName }

/-- The kind over the name, without quotation marks. -/
def label (node : Node) : String :=
  Text.erase '"' (node.kind.tag ++ "\n" ++ node.displayName)

/-- The last line of the label, the part that names the step. -/
def labelTail (node : Node) : String :=
  Text.lastPiece '\n' node.label

end Node

/-- All raw edges of one ordered pair. -/
structure MergedEdge where
  source : String
  target : String
  labels : List String
  style : EdgeStyle
  deriving DecidableEq, Repr

namespace MergedEdge

def labelSeparator : String := "/"

def ends (edge : MergedEdge) : String × String :=
  (edge.source, edge.target)

/-- A label that is absent, empty or known adds nothing. -/
def addLabel (labels : List String) : Option String → List String
  | none => labels
  | some label => if label = "" then labels else addNew labels label

/-- Takes in another raw edge of the same pair. -/
def absorb (merged : MergedEdge) (edge : Edge) : MergedEdge :=
  { merged with
    labels := addLabel merged.labels edge.label
    style := merged.style.join edge.style }

/-- The edge of a pair before any raw edge has come. -/
def bare (pair : String × String) : MergedEdge :=
  { source := pair.1, target := pair.2, labels := [], style := .plain }

def ofEdge (edge : Edge) : MergedEdge :=
  (bare edge.ends).absorb edge

def label (edge : MergedEdge) : String :=
  Text.join labelSeparator edge.labels

def isException (edge : MergedEdge) : Bool :=
  edge.style = .exception

@[simp]
theorem ends_ofEdge (edge : Edge) : (ofEdge edge).ends = edge.ends := rfl

end MergedEdge

/-- Nodes in module order and edges in the order of first appearance, each with the positions at
which they are found again. -/
structure Graph where
  source : Option String
  nodes : List Node
  edges : List MergedEdge
  nodeIndex : Index String
  edgeIndex : Index (String × String)
  deriving DecidableEq, Repr

namespace Graph

def empty : Graph :=
  { source := none, nodes := [], edges := [], nodeIndex := .empty, edgeIndex := .empty }

/-- The first module of each identifier owns its node, and a later one changes nothing. -/
def addModule (graph : Graph) (module : Module) : Graph :=
  match graph.nodeIndex.get? module.id with
  | some _ => graph
  | none =>
    { graph with
      nodes := graph.nodes ++ [Node.ofModule module]
      nodeIndex := graph.nodeIndex.insert module.id graph.nodes.length }

/-- The edge of the pair takes in the raw edge where it stands; a new pair gets an edge at the
end. -/
def addEdge (graph : Graph) (edge : Edge) : Graph :=
  match graph.edgeIndex.get? edge.ends with
  | some position => { graph with edges := graph.edges.modify position (·.absorb edge) }
  | none =>
    { graph with
      edges := graph.edges ++ [MergedEdge.ofEdge edge]
      edgeIndex := graph.edgeIndex.insert edge.ends graph.edges.length }

variable {graph : Graph} {module : Module} {edge : Edge} {position : Nat}

theorem addModule_known (h : graph.nodeIndex.get? module.id = some position) :
    graph.addModule module = graph := by
  simp [addModule, h]

theorem addModule_new (h : graph.nodeIndex.get? module.id = none) :
    graph.addModule module =
      { graph with
        nodes := graph.nodes ++ [Node.ofModule module]
        nodeIndex := graph.nodeIndex.insert module.id graph.nodes.length } := by
  simp [addModule, h]

theorem addEdge_known (h : graph.edgeIndex.get? edge.ends = some position) :
    graph.addEdge edge =
      { graph with edges := graph.edges.modify position (·.absorb edge) } := by
  simp [addEdge, h]

theorem addEdge_new (h : graph.edgeIndex.get? edge.ends = none) :
    graph.addEdge edge =
      { graph with
        edges := graph.edges ++ [MergedEdge.ofEdge edge]
        edgeIndex := graph.edgeIndex.insert edge.ends graph.edges.length } := by
  simp [addEdge, h]

def build (modules : List Module) (edges : List Edge) : Graph :=
  edges.foldl addEdge (modules.foldl addModule empty)

/-- Records the name of the document that the graph stems from. -/
def withSource (graph : Graph) (source : String) : Graph :=
  { graph with source := some source }

def node? (graph : Graph) (id : String) : Option Node :=
  graph.nodeIndex.find? graph.nodes id

def edge? (graph : Graph) (source target : String) : Option MergedEdge :=
  graph.edgeIndex.find? graph.edges (source, target)

def nodeIds (graph : Graph) : List String :=
  graph.nodes.map Node.id

def edgeEnds (graph : Graph) : List (String × String) :=
  graph.edges.map MergedEdge.ends

/-- Where edges begin and end, in order. -/
def endpoints (graph : Graph) : List String :=
  graph.edges.flatMap fun edge => [edge.source, edge.target]

/-- The ends of edges that name no module, in the order of first reference. -/
def danglingIds (graph : Graph) : List String :=
  distinct (graph.endpoints.filter fun id => (graph.nodeIndex.get? id).isNone)

/-- Every identifier that a diagram shows: those of nodes, then the dangling ones. -/
def shownIds (graph : Graph) : List String :=
  graph.nodeIds ++ graph.danglingIds

/-- The shown identifiers with their texts. A dangling one has no text but itself. -/
def shown (text : Node → String) (graph : Graph) : List (String × String) :=
  graph.nodes.map (fun node => (node.id, text node)) ++ graph.danglingIds.map (fun id => (id, id))

theorem map_fst_shown (text : Node → String) (graph : Graph) :
    (graph.shown text).map Prod.fst = graph.shownIds := by
  simp [shown, shownIds, nodeIds, Function.comp_def]

theorem fst_mem_shownIds {text : Node → String} {graph : Graph} {pair : String × String}
    (hp : pair ∈ graph.shown text) : pair.1 ∈ graph.shownIds := by
  rw [← map_fst_shown text]
  exact List.mem_map_of_mem hp

end Graph

end CallFlow
