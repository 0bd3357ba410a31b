import CallFlow.Toml.Value

namespace CallFlow.Toml

/-- What a key stands for. A table is implicit as long as only its members are named, and dotted
if they are named by keys with dots. -/
inductive Tree where
  | value (value : Value)
  | table (implicit dotted : Bool) (fields : List (String × Tree))
  | tables (members : List (List (String × Tree)))

/-- A table that is being filled. -/
structure Table where
  implicit : Bool
  dotted : Bool
  fields : List (String × Tree)

namespace Table

def toTree (table : Table) : Tree :=
  .table table.implicit table.dotted table.fields

def replace (key : String) (tree : Tree) : List (String × Tree) → List (String × Tree)
  | [] => []
  | (other, old) :: rest =>
    if other = key then (key, tree) :: rest else (other, old) :: replace key tree rest

def add? (table : Table) (key : String) (tree : Tree) : Option Table :=
  if (table.fields.lookup key).isSome then none
  else some { table with fields := table.fields ++ [(key, tree)] }

/-- Changes the table below a list of keys. Tables that are missing on the way are made, and of a
list of tables the last is meant. Keys with dots do not lead into a table that was written out. -/
def change? (dotted : Bool) (f : Table → Option Table) : List String → Table → Option Table
  | [], table => f table
  | key :: rest, table =>
    match table.fields.lookup key with
    | none => do
      let inner ← change? dotted f rest { implicit := true, dotted, fields := [] }
      some { table with fields := table.fields ++ [(key, inner.toTree)] }
    | some (.value _) => none
    | some (.tables members) =>
      match members.getLast? with
      | none => none
      | some last => do
        let inner ← change? dotted f rest { implicit := false, dotted := false, fields := last }
        some { table with
          fields := replace key (.tables (members.dropLast ++ [inner.fields])) table.fields }
    | some (.table innerImplicit innerDotted fields) =>
      if dotted && !innerImplicit then none
      else do
        let inner ← change? dotted f rest { implicit := innerImplicit, dotted := innerDotted, fields }
        some { table with fields := replace key inner.toTree table.fields }

/-- Sets the value of a key, which may have dots. A table is filled by such keys or by others,
never by both. -/
def set? (table : Table) (keys : List String) (tree : Tree) : Option Table :=
  match keys.getLast? with
  | none => none
  | some key =>
    let before := keys.dropLast
    change? true
      (fun inner => if inner.dotted = before.isEmpty then none else inner.add? key tree)
      before table

end Table

mutual

def Tree.toValue : Tree → Value
  | .value v => v
  | .table _ _ fields => .table (Tree.toFields fields)
  | .tables members => .array (Tree.toItems members)

def Tree.toFields : List (String × Tree) → List (String × Value)
  | [] => []
  | (key, tree) :: rest => (key, tree.toValue) :: Tree.toFields rest

def Tree.toItems : List (List (String × Tree)) → List Value
  | [] => []
  | fields :: rest => .table (Tree.toFields fields) :: Tree.toItems rest

end

end CallFlow.Toml
