import CallFlow.Diagram.Format
import CallFlow.Distinct

namespace CallFlow

inductive OutputFormat where
  | text (format : TextFormat)
  | svg
  deriving DecidableEq, Repr

namespace OutputFormat

/-- What is made if nothing else is asked for. -/
def defaults : List OutputFormat :=
  [text .dot, svg, text .mermaid, text .plantUml]

def name : OutputFormat → String
  | text format => format.name
  | svg => "svg"

def extension : OutputFormat → String
  | text format => format.extension
  | svg => "svg"

def isText : OutputFormat → Bool
  | text _ => true
  | svg => false

def parse (name : String) : Except Failure OutputFormat :=
  if Text.sameWord (Text.trim name) "svg" then .ok svg else (TextFormat.parse name).map text

/-- The formats with the given names, each once. The first bad name is refused. -/
def parseAll (names : List String) : Except Failure (List OutputFormat) :=
  (names.mapM parse).map distinct

end OutputFormat

end CallFlow
