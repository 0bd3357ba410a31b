import CallFlow.Diagram.Arrow
import CallFlow.Diagram.Mermaid

namespace CallFlow.Diagram.Mermaid

/-- Reads the label behind an arrow, if there is one: a quoted text between two bars. -/
def readLabel (cs : List Char) : Option (Bool × List Char) :=
  match Text.after? "|\"".toList cs with
  | some rest =>
    (Text.after? "\"|".toList (rest.dropWhile (· ≠ '"'))).map fun rest => (true, rest)
  | none => some (false, cs)

def arrow? (line : List Char) : Option Arrow := do
  let (source, cs) ← Arrow.readWord (← Text.after? "    ".toList line)
  let (isException, cs) ← Arrow.readStroke " -->" " -.->" cs
  let (isLabeled, cs) ← readLabel cs
  let (target, cs) ← Arrow.readWord (← Text.after? " ".toList cs)
  if cs = [] then some { source, target, isException, isLabeled } else none

/-- Of stretches that quotation marks separate, those that a mark opens. -/
def quoted : List (List Char) → List (List Char)
  | _ :: label :: rest => label :: quoted rest
  | _ => []

def labelTexts (text : String) : List String :=
  (quoted (Text.pieces '"' text.toList)).map String.ofList

/-- A label that begins so is not shown as it is: it is a text with markup. -/
def BeginsMarkup (label : String) : Prop :=
  label.toList.head? = some '`'
  deriving Decidable

end CallFlow.Diagram.Mermaid
