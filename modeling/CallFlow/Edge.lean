import CallFlow.Module

namespace CallFlow

/-- How a transition is drawn. -/
inductive EdgeStyle where
  | plain
  | exception
  deriving DecidableEq, Repr

namespace EdgeStyle

def name : EdgeStyle → String
  | plain => "plain"
  | exception => "exception"

/-- An exceptional transition stays one, whatever it is joined with. -/
def join : EdgeStyle → EdgeStyle → EdgeStyle
  | plain, style => style
  | exception, _ => exception

end EdgeStyle

/-- One transition. Its end may name a module that does not exist. -/
structure Edge where
  source : String
  target : String
  label : Option String
  style : EdgeStyle
  deriving DecidableEq, Repr

namespace Edge

def exceptionLabel : String := "Exception"

def plain (source target : String) : Edge :=
  { source, target, label := none, style := .plain }

/-- An empty label is no label. -/
def labeled (source target label : String) : Edge :=
  { source, target, label := if label = "" then none else some label, style := .plain }

def exception (source target : String) : Edge :=
  { source, target, label := some exceptionLabel, style := .exception }

/-- The ordered pair that the transition joins. -/
def ends (edge : Edge) : String × String :=
  (edge.source, edge.target)

def ofBranch (source : String) (entry : BranchEntry) : List Edge :=
  entry.transitions.map fun (label, target) => labeled source target label

end Edge

namespace Module

/-- The branch table of a module, if its kind has one. -/
def branchTable (module : Module) : List BranchEntry :=
  if module.kind.isBranching then module.payload.branches else []

/-- The transitions a module states: to its successor, to its exception handler, along its branch
table, and from each of its predecessors. -/
def edges (module : Module) : List Edge :=
  (module.payload.singleNext.map (Edge.plain module.id)).toList ++
  (module.payload.exceptionNext.map (Edge.exception module.id)).toList ++
  module.branchTable.flatMap (Edge.ofBranch module.id) ++
  module.payload.ascendants.map (fun predecessor => Edge.plain predecessor module.id)

end Module

def deriveEdges (modules : List Module) : List Edge :=
  modules.flatMap Module.edges

end CallFlow
