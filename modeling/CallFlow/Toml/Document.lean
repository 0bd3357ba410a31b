import CallFlow.Toml.Scalar
import CallFlow.Toml.Tree

namespace CallFlow.Toml

def maxNesting : Nat := 79

namespace Reader

def assignment (value : Reader Value) : Reader (List String × Value) := do
  let keys ← key
  expect "="
  skipSpaces
  return (keys, ← value)

def array (value : Reader Value) : Reader Value := do
  expect "["
  let items ← loop [] fun before => do
    skipBlank
    if ← accept "]" then return .done before
    let items := before ++ [← value]
    skipBlank
    if ← accept "," then return .again items
    expect "]"
    return .done items
  return .array items

def inlineTable (value : Reader Value) : Reader Value := do
  expect "\x7b"
  skipSpaces
  if ← accept "\x7d" then return .table []
  let start : Table := { implicit := false, dotted := false, fields := [] }
  let table ← loop start fun before => do
    let (keys, value) ← assignment value
    let table ← (before.set? keys (.value value) : Option Table)
    skipSpaces
    if ← accept "," then return .again table
    expect "\x7d"
    return .done table
  return table.toTree.toValue

def simpleValue : Reader Value := do
  match ← peek? with
  | some '"' =>
    return .string (← if ← startsWith "\"\"\"" then longBasicString else basicString)
  | some '\'' =>
    return .string (← if ← startsWith "'''" then longLiteralString else literalString)
  | some _ => Scalar.read
  | none => failure

/-- A value, in which others nest at most so deep. -/
def value : Nat → Reader Value
  | 0 => simpleValue
  | depth + 1 => do
    match ← peek? with
    | some '[' => array (value depth)
    | some '\x7b' => inlineTable (value depth)
    | _ => simpleValue

end Reader

/-- A document that is being read: the tables that are finished, and the one that is being
filled with the keys of its header. -/
structure Draft where
  root : Table
  current : Table
  path : List String
  isMember : Bool

namespace Draft

def emptyTable : Table := { implicit := false, dotted := false, fields := [] }

def start : Draft :=
  { root := emptyTable, current := emptyTable, path := [], isMember := false }

def addMember (key : String) (fields : List (String × Tree)) (table : Table) : Option Table :=
  match table.fields.lookup key with
  | none => some { table with fields := table.fields ++ [(key, .tables [fields])] }
  | some (.tables members) =>
    some { table with fields := Table.replace key (.tables (members ++ [fields])) table.fields }
  | some _ => none

def finish (draft : Draft) : Option Table :=
  match draft.path.getLast? with
  | none => some draft.current
  | some key =>
    draft.root.change? false
      (fun parent =>
        if draft.isMember then addMember key draft.current.fields parent
        else parent.add? key draft.current.toTree)
      draft.path.dropLast

/-- Begins the table of a header. One that has only been implied before is taken up again. -/
def beginTable (draft : Draft) (path : List String) : Option Draft := do
  let root ← draft.finish
  let key ← path.getLast?
  let parent := path.dropLast
  let root ← root.change? false some parent
  match (← found root parent).lookup key with
  | none => some { root, current := emptyTable, path, isMember := false }
  | some (.table true false fields) =>
    let root ← root.change? false
      (fun table => some { table with fields := table.fields.filter (·.1 ≠ key) }) parent
    some { root, current := { emptyTable with fields }, path, isMember := false }
  | some _ => none
where
  /-- The fields of the table below a list of keys. -/
  found (table : Table) : List String → Option (List (String × Tree))
    | [] => some table.fields
    | key :: rest =>
      match table.fields.lookup key with
      | some (.table implicit dotted fields) => found { implicit, dotted, fields } rest
      | some (.tables members) =>
        members.getLast?.bind fun fields => found { emptyTable with fields } rest
      | _ => none

def beginMember (draft : Draft) (path : List String) : Option Draft := do
  let root ← draft.finish
  let key ← path.getLast?
  let root ← root.change? false
    (fun parent =>
      match parent.fields.lookup key with
      | none => some { parent with fields := parent.fields ++ [(key, .tables [])] }
      | some (.tables _) => some parent
      | some _ => none)
    path.dropLast
  some { root, current := emptyTable, path, isMember := true }

end Draft

namespace Reader

def line (draft : Draft) : Reader Draft := do
  skipSpaces
  if ← accept "[[" then
    let path ← key
    expect "]]"
    endLine
    (draft.beginMember path : Option Draft)
  else if ← accept "[" then
    let path ← key
    expect "]"
    endLine
    (draft.beginTable path : Option Draft)
  else if (← peek?).any fun c => c = '#' || c = '\n' || c = '\r' then
    endLine
    return draft
  else if (← peek?).isNone then return draft
  else
    let (keys, value) ← assignment (value maxNesting)
    endLine
    let current ← (draft.current.set? keys (.value value) : Option Table)
    return { draft with current }

def document : Reader (List (String × Value)) := do
  let draft ← loop Draft.start fun draft => do
    if (← peek?).isNone then return .done draft else return .again (← line draft)
  let root ← (draft.finish : Option Table)
  return Tree.toFields root.fields

end Reader

/-- The fields of a document, if the text is one. A byte order mark may come first. -/
def parse? (text : String) : Option (List (String × Value)) :=
  let chars := text.toList
  let chars := if chars.head? = some Text.byteOrderMark then chars.tail else chars
  (Reader.document.run chars).map (·.1)

end CallFlow.Toml
