import CallFlow.FileTree.Fault
import CallFlow.Path

namespace CallFlow

/-- What a file holds: a text, or bytes that are the encoding of none. -/
inductive Content where
  | text (content : String)
  | binary (bytes : List UInt8)
  deriving DecidableEq, Repr

def Content.ofBytes (bytes : List UInt8) : Content :=
  match String.fromUTF8? ⟨bytes.toArray⟩ with
  | some content => text content
  | none => binary bytes

def Content.bytes : Content → List UInt8
  | text content => content.toUTF8.toList
  | binary bytes => bytes

/-- The names from the root down to a file or a directory. -/
abbrev Place := List String

inductive Item where
  | directory
  | file (content : Content)
  deriving DecidableEq, Repr

structure FileTree where
  items : List (Place × Item)
  home : Place
  deriving DecidableEq, Repr

namespace FileTree

def beginnings : Place → List Place
  | [] => [[]]
  | name :: rest => [] :: (beginnings rest).map (name :: ·)

def empty (home : Place) : FileTree :=
  { items := (beginnings home).tail.map fun place => (place, .directory), home }

/-- What is at a place. The root is always there. -/
def item? (tree : FileTree) (place : Place) : Option Item :=
  if place = [] then some .directory else tree.items.lookup place

/-- The entries with one for a place, where its old one stood or else behind all others. -/
def replaceEntry (place : Place) (item : Item) : List (Place × Item) → List (Place × Item)
  | [] => [(place, item)]
  | (other, old) :: rest =>
    if other = place then (place, item) :: rest else (other, old) :: replaceEntry place item rest

def put (tree : FileTree) (place : Place) (item : Item) : FileTree :=
  { tree with items := replaceEntry place item tree.items }

def remove (tree : FileTree) (place : Place) : FileTree :=
  { tree with items := tree.items.filter fun (other, _) => !place.isPrefixOf other }

def names (tree : FileTree) (dir : Place) : List String :=
  (tree.items.filterMap fun (place, _) =>
    match place.getLast? with
    | some name => if place.dropLast = dir then some name else none
    | none => none).mergeSort fun a b => decide (a ≤ b)

def longestName : Nat := 255

def longestPath : Nat := 4095

/-- Goes one step further, which is possible only inside a directory. -/
def follow (tree : FileTree) (place : Place) (step : String) : Except FileFault Place :=
  match tree.item? place with
  | none => .error .notFound
  | some (.file _) => .error .notDirectory
  | some .directory =>
    if step = "." then .ok place
    else if step = ".." then .ok place.dropLast
    else if step.utf8ByteSize > longestName then .error .nameTooLong
    else .ok (place ++ [step])

def start (tree : FileTree) (path : String) : Place :=
  if Path.isAbsolute path then [] else tree.home

/-- The steps of a path. A slash at the end demands a directory, as a last step in place does. -/
def steps (path : String) : List String :=
  Path.steps path ++ if path.toList.getLast? = some '/' then ["."] else []

def walkTo (tree : FileTree) (path : String) (steps : List String) : Except FileFault Place :=
  if path.toList.any (·.toNat = 0) then .error .nulInName
  else if path = "" then .error .notFound
  else if path.utf8ByteSize > longestPath then .error .nameTooLong
  else steps.foldlM tree.follow (tree.start path)

/-- The place that a path names. Only the last step may lead to where nothing is. -/
def locate (tree : FileTree) (path : String) : Except FileFault Place :=
  tree.walkTo path (steps path)

def find (tree : FileTree) (path : String) : Except FileFault Item := do
  match tree.item? (← tree.locate path) with
  | some item => .ok item
  | none => .error .notFound

def isDirectory (tree : FileTree) (path : String) : Bool :=
  match tree.find path with
  | .ok .directory => true
  | _ => false

def isPresent (tree : FileTree) (path : String) : Bool :=
  (tree.find path).toOption.isSome

def readText (tree : FileTree) (path : String) : Except FileFault String := do
  match ← tree.find path with
  | .directory => .error .isDirectory
  | .file (.binary _) => .error .invalidText
  | .file (.text content) => .ok content

/-- The place where a file would be written. A slash at the end asks for a file that is a
directory. -/
def target (tree : FileTree) (path : String) : Except FileFault Place := do
  let endsInSlash := path.toList.getLast? = some '/'
  let place ← if endsInSlash then tree.walkTo path (Path.steps path).dropLast else tree.locate path
  if !endsInSlash && tree.item? place = some .directory then throw .isDirectory
  match tree.item? (if endsInSlash then place else place.dropLast) with
  | some .directory => if endsInSlash then throw .isDirectory else return place
  | some (.file _) => throw .notDirectory
  | none => throw .notFound

def write (tree : FileTree) (path : String) (content : Content) : Except FileFault FileTree := do
  return tree.put (← tree.target path) (.file content)

def writeText (tree : FileTree) (path content : String) : Except FileFault FileTree :=
  tree.write path (.text content)

def makeDirectory (tree : FileTree) (path : String) : Except FileFault FileTree := do
  let place ← tree.walkTo path (Path.steps path)
  match tree.item? place with
  | some _ => .error .alreadyExists
  | none => .ok (tree.put place .directory)

/-- The path without its last part. A path that has none has no parent. -/
def parentPath? (path : String) : Option String :=
  match (Path.parts path).reverse with
  | [] => none
  | [.root] => none
  | _ :: before => some (pathOf before.reverse)
where
  nameOf : Path.Part → String
    | .root => ""
    | .current => "."
    | .parent => ".."
    | .normal name => name
  /-- The plain spelling of parts. -/
  pathOf (parts : List Path.Part) : String :=
    match parts with
    | [.root] => "/"
    | _ => Text.join "/" (parts.map nameOf)

/-- Makes a directory and those above it that are missing, at most `depth` of them. -/
def makeDirectoriesWithin : Nat → FileTree → String → Except FileFault FileTree
  | 0, _, _ => .error .notFound
  | depth + 1, tree, path =>
    if path = "" then .ok tree
    else
      match tree.makeDirectory path with
      | .ok tree => .ok tree
      | .error .notFound =>
        match parentPath? path with
        | none => .error .notFound
        | some parent => do
          let tree ← makeDirectoriesWithin depth tree parent
          match tree.makeDirectory path with
          | .ok tree => .ok tree
          | .error fault => if tree.isDirectory path then .ok tree else .error fault
      | .error fault => if tree.isDirectory path then .ok tree else .error fault

def makeDirectories (tree : FileTree) (path : String) : Except FileFault FileTree :=
  makeDirectoriesWithin ((Path.parts path).length + 2) tree path

end FileTree

end CallFlow
