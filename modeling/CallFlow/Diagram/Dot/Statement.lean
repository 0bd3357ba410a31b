import CallFlow.Diagram.Dot.Quoted

namespace CallFlow.Diagram.Dot

abbrev Attributes := List (String × String)

/-- One line of a document. The defaults of nodes and edges are given as they are written. -/
inductive Statement where
  | setting (key value : String)
  | nodeDefaults (text : String)
  | edgeDefaults (text : String)
  | blank
  | node (id : String) (attributes : Attributes)
  | edge (source target : String) (attributes : Attributes)
  deriving DecidableEq, Repr

def indent (level : Nat) : String :=
  String.ofList (List.replicate (2 * level) ' ')

namespace Attributes

/-- One attribute: its key, and its value in quotation marks. -/
def pairText (pair : String × String) : String :=
  pair.1 ++ "=" ++ quote pair.2

def text (attributes : Attributes) : String :=
  "[" ++ Text.join ", " (attributes.map pairText) ++ "]"

/-- An empty list is left out together with the space before it. -/
def suffix (attributes : Attributes) : String :=
  if attributes.isEmpty then "" else " " ++ attributes.text

end Attributes

namespace Statement

def line : Statement → String
  | setting key value => indent 1 ++ key ++ "=" ++ quote value ++ ";"
  | nodeDefaults text => indent 1 ++ "node [" ++ text ++ "];"
  | edgeDefaults text => indent 1 ++ "edge [" ++ text ++ "];"
  | blank => ""
  | node id attributes => indent 1 ++ quote id ++ Attributes.suffix attributes ++ ";"
  | edge source target attributes =>
    indent 1 ++ quote source ++ " -> " ++ quote target ++ Attributes.suffix attributes ++ ";"

end Statement

def documentLines (name : String) (statements : List Statement) : List String :=
  ("digraph " ++ name ++ " \x7b") :: statements.map Statement.line ++ ["\x7d"]

def document (name : String) (statements : List Statement) : String :=
  String.join ((documentLines name statements).map (· ++ "\n"))

end CallFlow.Diagram.Dot
