import CallFlow.Diagram
import CallFlow.Diagram.Dot.Element
import CallFlow.Diagram.Mermaid.Reader
import CallFlow.Diagram.PlantUml.Reader

namespace CallFlow

def TextFormat.arrow? : TextFormat → List Char → Option Diagram.Arrow
  | dot => Diagram.Dot.arrow?
  | mermaid => Diagram.Mermaid.arrow?
  | plantUml => Diagram.PlantUml.arrow?

namespace Graph

def written (graph : Graph) : TextFormat → String → String
  | .dot => Diagram.Dot.quote
  | .mermaid => (Diagram.Mermaid.names graph).resolve
  | .plantUml => (Diagram.PlantUml.names graph).resolve

def drawnArrows (graph : Graph) (format : TextFormat) : List Diagram.Arrow :=
  Diagram.Arrow.onLines format.arrow? (graph.draw format false)

def drawnEnds (graph : Graph) (format : TextFormat) : List String :=
  (graph.drawnArrows format).flatMap fun arrow => [arrow.source, arrow.target]

end Graph

end CallFlow
