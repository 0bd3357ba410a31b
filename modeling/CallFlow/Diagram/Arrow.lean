import CallFlow.Diagram.Naming

namespace CallFlow.Diagram

/-- One arrow of a diagram. Its ends are given as they are written there. -/
structure Arrow where
  source : String
  target : String
  isException : Bool
  isLabeled : Bool
  deriving DecidableEq, Repr

namespace Arrow

/-- The arrow that an edge asks for when its ends are written in the given way. -/
def ofEdge (written : String → String) (edge : MergedEdge) : Arrow :=
  { source := written edge.source
    target := written edge.target
    isException := edge.isException
    isLabeled := !edge.labels.isEmpty }

def onLines (ofLine? : List Char → Option Arrow) (text : String) : List Arrow :=
  (Text.pieces '\n' text.toList).filterMap ofLine?

def readStroke (plain exception : String) (cs : List Char) : Option (Bool × List Char) :=
  match Text.after? plain.toList cs with
  | some rest => some (false, rest)
  | none => (Text.after? exception.toList cs).map fun rest => (true, rest)

def readWord (cs : List Char) : Option (String × List Char) :=
  if cs.takeWhile isWordChar = [] then none
  else some (String.ofList (cs.takeWhile isWordChar), cs.dropWhile isWordChar)

end Arrow

end CallFlow.Diagram
