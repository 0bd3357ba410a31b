import CallFlow.Diagram.Arrow
import CallFlow.Diagram.PlantUml

namespace CallFlow.Diagram.PlantUml

/-- The arrow on a line that leads from one state to another. The mark of an initial state is not
the name of one. -/
def arrow? (line : List Char) : Option Arrow := do
  let (source, cs) ← Arrow.readWord line
  let (isException, cs) ← Arrow.readStroke " --> " " -[#red,dashed]-> " cs
  let (target, cs) ← Arrow.readWord cs
  if cs = [] then some { source, target, isException, isLabeled := false }
  else (Text.after? " : ".toList cs).map fun _ => { source, target, isException, isLabeled := true }

end CallFlow.Diagram.PlantUml
