import CallFlow.Diagram.Dot.Drawing
import CallFlow.Diagram.Format
import CallFlow.Diagram.Mermaid
import CallFlow.Diagram.PlantUml

namespace CallFlow.Graph

/-- Only DOT shows the source, and only if `annotate` asks for it. -/
def draw (graph : Graph) (format : TextFormat) (annotate : Bool) : String :=
  match format with
  | .dot => Diagram.Dot.draw graph annotate
  | .mermaid => Diagram.Mermaid.draw graph
  | .plantUml => Diagram.PlantUml.draw graph

end CallFlow.Graph
