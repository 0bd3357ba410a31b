import CallFlow.Distinct
import CallFlow.Walk

namespace CallFlow.Discovery

def documentExtension : String := "xml"

def pathOf (dir : String) (entry : WalkEntry) : String :=
  entry.names.foldl Path.join dir

def isDocument (dir : String) (entry : WalkEntry) : Bool :=
  entry.isFile && (Path.extension? (pathOf dir entry)).any (Text.sameWord · documentExtension)

def inOrder (a b : WalkEntry) : Bool :=
  Path.lessOrEqual a.names b.names

def documentsOf (dir : String) (entries : List WalkEntry) : List String :=
  ((entries.filter (isDocument dir)).mergeSort inOrder).map (pathOf dir)

def unwalkable (dir : String) (fault : Walk.Fault) : Failure :=
  ((Failure.new .traversalFailed (fault.message dir)).withOperation
    "discovery::walk_dir").withContext "dir" dir

def documentsIn (walk : String → Except Walk.Fault (List WalkEntry)) (dir : String) :
    Except Failure (List String) :=
  ((walk dir).map (documentsOf dir)).mapError (unwalkable dir)

def nothingFound : Failure :=
  (Failure.new .invalidArgument
    "No input files found. Check that the directory contains .xml documents.").withOperation
    "discovery::discover_files"

/-- The named files as they are given, and then the documents of each directory. Of equal paths the
first spelling is kept. -/
def discover (walk : String → Except Walk.Fault (List WalkEntry)) (files dirs : List String) :
    Except Failure (List String) := do
  let found ← dirs.mapM (documentsIn walk)
  match distinctBy Path.parts (files ++ found.flatten) with
  | [] => throw nothingFound
  | sources => return sources

def sources (tree : FileTree) (files dirs : List String) : Except Failure (List String) :=
  discover (Walk.entries tree) files dirs

end CallFlow.Discovery
