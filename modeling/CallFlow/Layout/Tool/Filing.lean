import CallFlow.Layout.Tool.Line

namespace CallFlow.Layout.Tool.Filing

/-- What a tool has done to the files so far, and its complaints. -/
structure Work where
  tree : FileTree
  errors : Chars

namespace Work

def through (call : Call) (step : FileTree → Chars → Except Chars FileTree) (names : List Chars) :
    Work :=
  names.foldl (fun work name =>
    match step work.tree name with
    | .ok tree => { work with tree }
    | .error message => { work with errors := work.errors ++ call.complaint message })
    { tree := call.tree, errors := [] }

def finish (work : Work) (output left : Chars) : Outcome :=
  { output, errors := work.errors, ending := .exited (if work.errors = [] then 0 else 1), left
    tree? := some work.tree }

end Work

def named (name : Chars) : Chars :=
  '\'' :: name ++ ['\'']

def cannot (what : String) (name : Chars) (reason : String) : Chars :=
  "cannot ".toList ++ what.toList ++ ' ' :: named name ++ ": ".toList ++ reason.toList

def tee : Program := fun call =>
  match tell [.switch 'a' (some "append"), .switch 'i' (some "ignore-interrupts")] call.args with
  | .error fault => call.refuse fault
  | .ok told =>
    match call.inputFault with
    | some reason => call.fail ("read error: ".toList ++ reason.toList)
    | none =>
      let descriptors := told.operands.filterMap System.descriptor?
      let files := told.operands.filter fun name => (System.descriptor? name).isNone
      let work := Work.through call (fun tree name =>
        (System.write tree name (told.has 'a') call.input).mapError fun reason =>
          Call.shown name ++ ": ".toList ++ reason.toList) files
      let outcome := work.finish
        (List.replicate (descriptors.count 1 + 1) call.input).flatten []
      { outcome with errors := outcome.errors ++ if descriptors.contains 2 then call.input else [] }

def found (tree : FileTree) (name : Chars) : Except FileFault (Place × Item) := do
  let path := System.pathOf name
  return (← tree.locate path, ← tree.find path)

def rm : Program := fun call =>
  match tell [.switch 'f' (some "force"), .switch 'r' (some "recursive"), .switch 'R' none,
      .switch 'd' (some "dir"), .switch 'v' (some "verbose")] call.args with
  | .error fault => call.refuse fault
  | .ok told =>
    if told.operands = [] && !told.has 'f' then call.failWithHelp "missing operand".toList 1
    else
      let step (tree : FileTree) (name : Chars) : Except Chars FileTree :=
        match found tree name with
        | .error fault =>
          if told.has 'f' then .ok tree else .error (cannot "remove" name fault.reason)
        | .ok (place, .file _) => .ok (tree.remove place)
        | .ok (place, .directory) =>
          if told.has 'r' || told.has 'R' then .ok (tree.remove place)
          else .error (cannot "remove" name (FileFault.reason .isDirectory))
      (Work.through call step told.operands).finish [] call.input

def mkdir : Program := fun call =>
  match tell [.switch 'p' (some "parents"), .switch 'v' (some "verbose"),
      .setting 'm' (some "mode")] call.args with
  | .error fault => call.refuse fault
  | .ok told =>
    if told.operands = [] then call.failWithHelp "missing operand".toList 1
    else
      let step (tree : FileTree) (name : Chars) : Except Chars FileTree :=
        let path := System.pathOf name
        let made := if told.has 'p' then tree.makeDirectories path else tree.makeDirectory path
        made.mapError fun fault => cannot "create directory" name fault.reason
      (Work.through call step told.operands).finish [] call.input

def rmdir : Program := fun call =>
  let failed (name : Chars) (reason : String) : Chars :=
    "failed to remove ".toList ++ named name ++ ": ".toList ++ reason.toList
  match call.args with
  | [] => call.failWithHelp "missing operand".toList 1
  | names =>
    let step (tree : FileTree) (name : Chars) : Except Chars FileTree :=
      match found tree name with
      | .error fault => .error (failed name fault.reason)
      | .ok (_, .file _) => .error (failed name (FileFault.reason .notDirectory))
      | .ok (place, .directory) =>
        if tree.names place = [] then .ok (tree.remove place)
        else .error (failed name "Directory not empty")
    (Work.through call step names).finish [] call.input

def touch : Program := fun call =>
  match tell [.switch 'a' none, .switch 'm' none, .switch 'c' (some "no-create")] call.args with
  | .error fault => call.refuse fault
  | .ok told =>
    if told.operands = [] then call.failWithHelp "missing file operand".toList 1
    else
      let step (tree : FileTree) (name : Chars) : Except Chars FileTree :=
        match found tree name with
        | .ok _ => .ok tree
        | .error _ =>
          if told.has 'c' then .ok tree
          else (System.write tree name true []).mapError (cannot "touch" name)
      (Work.through call step told.operands).finish [] call.input

def lastName (path : Chars) : Chars :=
  ((path.reverse.dropWhile (· = '/')).takeWhile (· ≠ '/')).reverse

def duplicate (tree : FileTree) (source target : Place) : FileTree :=
  (tree.items.filter fun (place, _) => source.isPrefixOf place).foldl (fun tree (place, item) =>
    tree.put (target ++ place.drop source.length) item) tree

def directoryFault? (tree : FileTree) (keeps : Bool) (source target : Place)
    (origin goal : Chars) : Option Chars :=
  if source.isPrefixOf target then
    some ((if keeps then "cannot copy a directory, " else "cannot move ").toList ++ named origin ++
      (if keeps then ", into itself, " else " to a subdirectory of itself, ").toList ++ named goal)
  else
    match tree.item? target with
    | some (.file _) =>
      some ("cannot overwrite non-directory ".toList ++ named goal ++ " with directory ".toList ++
        named origin)
    | _ => none

def copyOne (keeps deep : Bool) (source aim : Chars) (tree : FileTree) : Except Chars FileTree :=
  let uncreated (fault : FileFault) : Chars :=
    cannot (if keeps then "create regular file" else "move") aim fault.reason
  match found tree source with
  | .ok (place, .directory) =>
    if keeps && !deep then .error ("-r not specified; omitting directory ".toList ++ named source)
    else
      match tree.locate (System.pathOf aim) with
      | .error fault => .error (uncreated fault)
      | .ok target =>
        match directoryFault? tree keeps place target source aim with
        | some message => .error message
        | none =>
          let copied := duplicate tree place target
          .ok (if keeps then copied else copied.remove place)
  | .ok (place, .file content) =>
    if (found tree aim).toOption.any (·.1 = place) then
      .error (named source ++ " and ".toList ++ named aim ++ " are the same file".toList)
    else
      match tree.write (System.pathOf aim) content with
      | .ok after => .ok (if keeps then after else after.remove place)
      | .error fault => .error (uncreated fault)
  | .error fault =>
    match System.read tree source with
    | .ok content => (System.write tree aim false content).mapError (cannot "create regular file" aim)
    | .error _ => .error (cannot "stat" source fault.reason)

def copy (keeps : Bool) : Program := fun call =>
  match tell [.switch 'f' (some "force"), .switch 'p' none, .switch 'v' (some "verbose"),
      .switch 'r' (some "recursive"), .switch 'R' none, .switch 'a' (some "archive")] call.args with
  | .error fault => call.refuse fault
  | .ok told =>
    match told.operands.reverse with
    | [] => call.failWithHelp "missing file operand".toList 1
    | [only] => call.failWithHelp ("missing destination file operand after ".toList ++ named only) 1
    | target :: sources =>
      let isDirectory := call.tree.isDirectory (System.pathOf target)
      let deep := told.has 'r' || told.has 'R' || told.has 'a'
      if sources.length > 1 && !isDirectory then
        call.fail ("target ".toList ++ named target ++ ": No such file or directory".toList)
      else
        let into := if target.getLast? = some '/' then target else target ++ ['/']
        let step (tree : FileTree) (source : Chars) : Except Chars FileTree :=
          copyOne keeps deep source (if isDirectory then into ++ lastName source else target) tree
        (Work.through call step sources.reverse).finish [] call.input

def ls : Program := fun call =>
  match tell [.switch '1' none, .switch 'a' (some "all"), .switch 'A' (some "almost-all"),
      .switch 'd' (some "directory"), .switch 'r' (some "reverse")] call.args with
  | .error fault => { call.refuse fault with ending := .exited 2 }
  | .ok told =>
    let ordered (names : List Chars) : List Chars :=
      let sorted := names.mergeSort notAfter
      if told.has 'r' then sorted.reverse else sorted
    let isShown (name : Chars) : Bool := name.head? ≠ some '.' || told.has 'a' || told.has 'A'
    let within (place : Place) : List Chars :=
      let names := (call.tree.names place).map charsOf
      ordered (((if told.has 'a' then [['.'], ['.', '.']] else []) ++ names).filter isShown)
    let names := if told.operands = [] then [['.']] else ordered told.operands
    let missing := names.filterMap fun name =>
      match found call.tree name with
      | .error fault => some (call.complaint (cannot "access" name fault.reason))
      | .ok _ => none
    let files := names.filter fun name =>
      match found call.tree name with
      | .ok (_, .file _) => true
      | .ok (_, .directory) => told.has 'd'
      | .error _ => false
    let dirs := if told.has 'd' then [] else names.filterMap fun name =>
      match found call.tree name with
      | .ok (place, .directory) => some (name, place)
      | _ => none
    let sections := (if files = [] then [] else [unlines files]) ++ dirs.map fun (name, place) =>
      (if names.length > 1 then name ++ [':', '\n'] else []) ++ unlines (within place)
    { output := (sections.intersperse ['\n']).flatten, errors := missing.flatten
      ending := .exited (if missing = [] then 0 else 2), left := call.input }

end CallFlow.Layout.Tool.Filing
