import CallFlow.Failure

namespace CallFlow

inductive TextFormat where
  | dot
  | mermaid
  | plantUml
  deriving DecidableEq, Repr

namespace TextFormat

def all : List TextFormat := [dot, mermaid, plantUml]

def name : TextFormat → String
  | dot => "dot"
  | mermaid => "mermaid"
  | plantUml => "plantuml"

/-- Further names under which a format is asked for. -/
def aliases : TextFormat → List String
  | dot => ["gv"]
  | mermaid => ["mmd"]
  | plantUml => ["puml", "uml"]

def extension : TextFormat → String
  | dot => "dot"
  | mermaid => "mmd"
  | plantUml => "puml"

/-- Letter case and blanks around the name do not matter. -/
def named? (text : String) : Option TextFormat :=
  all.find? fun format => (format.name :: format.aliases).any (Text.sameWord · (Text.trim text))

/-- Refuses a name with the name as it was given. -/
def parse (text : String) : Except Failure TextFormat :=
  match named? text with
  | some format => .ok format
  | none => .error ((Failure.unsupportedFormat text).withOperation "emit::parse_format")

end TextFormat

end CallFlow
