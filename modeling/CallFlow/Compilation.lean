import CallFlow.Extraction
import CallFlow.Graph
import CallFlow.Xml.Prolog

namespace CallFlow

/-- A compiled document, with the modules and raw edges that its graph was built from. -/
structure Compilation where
  modules : List Module
  edges : List Edge
  graph : Graph

namespace Compilation

def ofModules (modules : List Module) : Compilation :=
  let edges := deriveEdges modules
  { modules, edges, graph := Graph.build modules edges }

def ofDocument (document : Xml.Document) : Except Failure Compilation :=
  (Extraction.modules (.ofDocument document)).map ofModules

def ofText (text : String) : Except Failure Compilation :=
  Xml.Document.parse text >>= ofDocument

end Compilation

def compile (text : String) : Except Failure Graph :=
  (Compilation.ofText text).map Compilation.graph

end CallFlow
