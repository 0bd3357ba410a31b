import CallFlow.CorpusCommand
import CallFlow.DrawCommand

namespace CallFlow.Program

/-- Everything at a place and below it. What cannot be read is left out. -/
partial def itemsBelow (place : Place) : IO (List (Place × Item)) := do
  let path := Path.fromRoot place
  if ← (← IO.FS.realPath path).isDir then
    let entries ← (← IO.FS.realPath path).readDir
    let below ← entries.toList.mapM fun entry => itemsBelow (place ++ [entry.fileName])
    return (place, .directory) :: below.flatten
  else
    try
      let bytes ← IO.FS.readBinFile path
      return [(place, .file (.ofBytes bytes.data.toList))]
    catch _ => return []

/-- The working directory with everything in it. -/
def currentTree : IO FileTree := do
  let home := Path.steps (← IO.currentDir).toString
  let tree := FileTree.empty home
  return { tree with items := tree.items.dropLast ++ (← itemsBelow home) }

def putBack (place : Place) (item : Item) : IO Unit :=
  let path := Path.fromRoot place
  match item with
  | .directory => IO.FS.createDirAll path
  | .file (.text content) => IO.FS.writeFile path content
  | .file (.binary bytes) => IO.FS.writeBinFile path ⟨bytes.toArray⟩

/-- The milliseconds since the epoch, as the file system tells them. -/
def clock : IO Nat :=
  IO.FS.withTempFile fun _ path => do
    let time := (← path.metadata).modified
    return time.sec.toNat * 1000 + time.nsec.toNat / 1000000

def perform (name : Option String) (arguments : List String) (clock : Nat) (tree : FileTree) :
    CommandLine.Finish :=
  if name = some CorpusCommand.name then CorpusCommand.run arguments tree
  else DrawCommand.run arguments clock tree

end CallFlow.Program

open CallFlow in
def main (arguments : List String) : IO UInt32 := do
  let before ← Program.currentTree
  let finish :=
    Program.perform (← IO.appPath).fileName arguments (← Program.clock) before
  for (place, item) in finish.tree.items do
    unless before.item? place = some item do Program.putBack place item
  IO.print finish.printed
  IO.eprint finish.complaint
  return finish.status.toUInt32
