import CallFlow.FileTree
import CallFlow.Ignore.RuleFile

namespace CallFlow

/-- What a walk comes upon: the names that lead from its start, and whether it is a file. -/
structure WalkEntry where
  names : List String
  isFile : Bool
  deriving DecidableEq, Repr

namespace Walk

/-- Directories that never hold documents, in any letter case: they are built or supplied. -/
def passedOver : List String :=
  ["target", "build", "dist", "vendor", "node_modules"]

def isPassedOver (name : String) : Bool :=
  passedOver.contains (Text.asciiLower name)

def isHidden (name : String) : Bool :=
  name.toList.head? = some '.'

def enclosing (place : Place) : List Place :=
  (List.range place.length).map (fun n => place.take (place.length - 1 - n))

def ruleFile (tree : FileTree) (path : String) : Ignore.RuleFile :=
  match tree.find path with
  | .ok (.file content) => .ofContent content
  | _ => .empty

/-- The file of rules for everyone. -/
def ownPath (dir : Place) : String :=
  Path.fromRoot (dir ++ [".ignore"])

def versionPath (dir : Place) : String :=
  Path.fromRoot (dir ++ [".gitignore"])

def firstLine? (content : Content) : Except FileFault (Option String) :=
  match (Ignore.RuleFile.linesOf content).head? with
  | none => .ok none
  | some none => .error .invalidText
  | some (some line) => .ok (some (String.ofList line))

/-- The path of the further rules for version control. Where the history is not in the directory
itself, a file says where it is, and another one there says where the rules are. -/
def excludePath? (tree : FileTree) (dir : Place) : Except (String × FileFault) (Option String) := do
  let history := Path.fromRoot (dir ++ [".git"])
  match tree.find history with
  | .ok (.file content) =>
    let line? ← (firstLine? content).mapError (history, ·)
    match line?.bind (Text.dropStart? "gitdir: ") with
    | none => return none
    | some real =>
      let pointer := Path.join real "commondir"
      match tree.find pointer with
      | .error _ => return none
      | .ok .directory => throw (pointer, .isDirectory)
      | .ok (.file content) =>
        let line? ← (firstLine? content).mapError (pointer, ·)
        return line?.map fun line =>
          Path.join (if Text.startsWith line "." then Path.join real line else line) "info/exclude"
  | _ => return some (Path.join history "info/exclude")

/-- The further rules for version control. -/
def excludeFile (tree : FileTree) (dir : Place) : Ignore.RuleFile :=
  match excludePath? tree dir with
  | .ok (some path) => ruleFile tree path
  | _ => .empty

def historyDirs : List String := [".git", ".jj"]

def isRepository (tree : FileTree) (dir : Place) : Bool :=
  historyDirs.any fun name => (tree.item? (dir ++ [name])).isSome

/-- A directory whose rules count for a place, and the path of that place as its rules see it. -/
structure Outlook where
  dir : Place
  path : String
  deriving DecidableEq, Repr

def dropCurrent (path : String) : String :=
  (Text.dropStart? "./" path).getD path

/-- The path of an entry as the rules in a directory see it. Both paths are taken as they are
spelled: the one of the directory loses the current directory at its start once, and the one of the
entry twice. -/
def pathFrom (dir entry : String) : String :=
  let dir := dropCurrent dir
  let entry := dropCurrent (dropCurrent entry)
  if Path.same dir "." || !entry.toList.contains '/' then entry
  else
    match Text.dropStart? dir entry with
    | some below => (Text.dropStart? "/" below).getD below
    | none => entry

/-- The directories whose rules count for the names below the start of a walk, the innermost first:
those on the way from the start, and those in which the start lies. -/
def outlooks (start : Place) (dir : String) (names : List String) : List Outlook :=
  let inner := (List.range names.length).map fun n =>
    let way := names.take (names.length - 1 - n)
    { dir := start ++ way, path := pathFrom (way.foldl Path.join dir) (names.foldl Path.join dir) }
  let outer := (enclosing start).map fun place =>
    { dir := place, path := Text.join "/" (start.drop place.length ++ names) }
  inner ++ outer

/-- The outlooks up to the first from a repository. -/
def withinRepository (tree : FileTree) : List Outlook → List Outlook
  | [] => []
  | near :: outer =>
    if isRepository tree near.dir then [near] else near :: withinRepository tree outer

def verdictOf (isDirectory : Bool) (rulesIn : Place → Ignore.RuleFile) (outlooks : List Outlook) :
    Ignore.Verdict :=
  (outlooks.map fun outlook =>
    Ignore.verdict (rulesIn outlook.dir).rules outlook.path isDirectory).foldr
      Ignore.Verdict.orElse .silent

/-- What all ignore files say. Those for version control count only inside a repository. -/
def verdict (tree : FileTree) (isDirectory : Bool) (outlooks : List Outlook) : Ignore.Verdict :=
  let own := verdictOf isDirectory (fun dir => ruleFile tree (ownPath dir)) outlooks
  if outlooks.any (isRepository tree ·.dir) then
    let near := withinRepository tree outlooks
    own.orElse ((verdictOf isDirectory (fun dir => ruleFile tree (versionPath dir)) near).orElse
      (verdictOf isDirectory (excludeFile tree) near))
  else own

/-- Whether a walk from `start`, which is spelled `dir`, goes on to the names below it. -/
def admits (tree : FileTree) (start : Place) (dir : String) (names : List String)
    (isDirectory : Bool) : Bool :=
  match names.getLast? with
  | none => true
  | some name =>
    (match verdict tree isDirectory (outlooks start dir names) with
      | .ignored => false
      | .kept => true
      | .silent => !isHidden name) &&
    !(isDirectory && isPassedOver name)

def reaches (tree : FileTree) (start : Place) (dir : String) (names : List String)
    (isDirectory : Bool) : Bool :=
  (List.range names.length).all fun n =>
    admits tree start dir (names.take (n + 1)) (n + 1 < names.length || isDirectory)

/-- What is wrong with the further rules for version control. -/
def excludeComplaints (tree : FileTree) (dir : Place) : List String :=
  match excludePath? tree dir with
  | .ok none => []
  | .ok (some path) => (ruleFile tree path).complaints path
  | .error (path, fault) => [path ++ ": " ++ fault.message]

def complaints (tree : FileTree) (start : Place) : List String :=
  (enclosing start).reverse.flatMap fun dir =>
    [ownPath dir, versionPath dir].flatMap (fun path => (ruleFile tree path).complaints path) ++
      excludeComplaints tree dir

/-- Why a directory cannot be walked through. -/
inductive Fault where
  | unreachable (fault : FileFault)
  | badRules (complaints : List String)
  deriving DecidableEq, Repr

def Fault.message (fault : Fault) (dir : String) : String :=
  match fault with
  | unreachable fault => dir ++ ": IO error for operation on " ++ dir ++ ": " ++ fault.message
  | badRules complaints => Text.join "\n" complaints

/-- The path that stands for the standard input, below which there is nothing. -/
def standardInput : String := "-"

def below (tree : FileTree) (start : Place) (dir : String) : List WalkEntry :=
  tree.items.filterMap fun (place, item) =>
    let names := place.drop start.length
    let isDirectory := item = .directory
    if start.isPrefixOf place && names ≠ [] && reaches tree start dir names isDirectory then
      some { names, isFile := !isDirectory }
    else none

/-- What the walk through a directory comes upon. The start itself is always visited, even if it is
a file. Rules inside a directory may be faulty, but not those above it. -/
def entries (tree : FileTree) (dir : String) : Except Fault (List WalkEntry) := do
  if Path.same dir standardInput then return []
  let item ← (tree.find dir).mapError .unreachable
  let start ← (tree.locate dir).mapError .unreachable
  match item with
  | .file _ => return [{ names := [], isFile := true }]
  | .directory =>
    let complaints := complaints tree start
    if complaints ≠ [] then throw (.badRules complaints)
    return { names := [], isFile := false } :: below tree start dir

end Walk

end CallFlow
