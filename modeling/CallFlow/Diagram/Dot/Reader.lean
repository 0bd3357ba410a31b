import CallFlow.Diagram.Dot.Statement

namespace CallFlow.Diagram.Dot

/-- What follows a given beginning. -/
def after? (start : String) (cs : List Char) : Option (List Char) :=
  Text.after? start.toList cs

def readString (cs : List Char) : Option (String × List Char) := do
  let (text, rest) ← readQuoted (← after? "\"" cs)
  return (String.ofList text, rest)

/-- Passes over a quoted string and returns it as it is written, with its quotation marks. -/
def scanString (cs : List Char) : Option (String × List Char) := do
  let (text, rest) ← scanQuoted (← after? "\"" cs)
  return ("\"" ++ String.ofList text ++ "\"", rest)

def readAttribute (cs : List Char) : Option ((String × String) × List Char) := do
  let key := cs.takeWhile (· ≠ '=')
  let (value, rest) ← readString (← after? "=" (cs.drop key.length))
  return ((String.ofList key, value), rest)

/-- Reads the rest of an attribute list. The number bounds the attributes. -/
def readAttributes : Nat → List Char → Option (Attributes × List Char)
  | 0, _ => none
  | bound + 1, cs => do
    let (first, rest) ← readAttribute cs
    match after? ", " rest with
    | some rest =>
      let (others, rest) ← readAttributes bound rest
      return (first :: others, rest)
    | none => return ([first], ← after? "]" rest)

def readSuffix (cs : List Char) : Option (Attributes × List Char) :=
  match after? " [" cs with
  | some rest => readAttributes rest.length rest
  | none => some ([], cs)

def before? (ending : String) (cs : List Char) : Option String :=
  (after? (String.ofList ending.toList.reverse) cs.reverse).map fun rest =>
    String.ofList rest.reverse

namespace Statement

/-- A node or an edge, both of which begin with an identifier. -/
def ofSubject? (cs : List Char) : Option Statement := do
  let (id, rest) ← readString cs
  match after? " -> " rest with
  | none =>
    let (attributes, rest) ← readSuffix rest
    if rest = [';'] then return .node id attributes else none
  | some rest =>
    let (target, rest) ← readString rest
    let (attributes, rest) ← readSuffix rest
    if rest = [';'] then return .edge id target attributes else none

def ofSetting? (cs : List Char) : Option Statement := do
  let ((key, value), rest) ← readAttribute cs
  if rest = [';'] then return .setting key value else none

def ofLine? (line : List Char) : Option Statement :=
  if line = [] then some .blank
  else do
    let cs ← after? (indent 1) line
    if cs.head? = some '"' then ofSubject? cs
    else
      match after? "node [" cs, after? "edge [" cs with
      | some rest, _ => return .nodeDefaults (← before? "];" rest)
      | none, some rest => return .edgeDefaults (← before? "];" rest)
      | none, none => ofSetting? cs

end Statement

def readHeader (line : List Char) : Option String := do
  before? " \x7b" (← after? "digraph " line)

/-- The name and the statements of a document. -/
def read? (text : String) : Option (String × List Statement) := do
  match (Text.pieces '\n' text.toList).reverse with
  | [] :: ['\x7d'] :: lines =>
    match lines.reverse with
    | header :: body => return (← readHeader header, ← body.mapM Statement.ofLine?)
    | [] => none
  | _ => none

end CallFlow.Diagram.Dot
