import CallFlow.CommandLine.Grammar
import CallFlow.FileTree

namespace CallFlow.CommandLine

structure Finish where
  printed : String
  complaint : String
  status : Nat
  tree : FileTree
  deriving DecidableEq, Repr

namespace Finish

def usageStatus : Nat := 2

def failureStatus : Nat := 1

def success (printed : String) (tree : FileTree) : Finish :=
  { printed, complaint := "", status := 0, tree }

def failure (printed message : String) (tree : FileTree) : Finish :=
  { printed, complaint := "Error: " ++ message ++ "\n", status := failureStatus, tree }

def halted (name version : String) (tree : FileTree) : Halt → Finish
  | .version => success (name ++ " " ++ version ++ "\n") tree
  | .fault fault =>
    { printed := "", complaint := "error: " ++ fault.message ++ "\n", status := usageStatus, tree }

end Finish

end CallFlow.CommandLine
