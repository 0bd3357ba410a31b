import CallFlow.Config
import CallFlow.Layout.Script.Evaluation
import CallFlow.Layout.Tool
import CallFlow.Text.Utf8

namespace CallFlow

/-- Makes a picture of a DOT document. Files can be read and changed on the way. -/
abbrev Layout := (dot : String) → FileTree → Except Failure String × FileTree

namespace Layout

/-- A layout that depends on nothing but the document and leaves all files as they are. -/
def ofFunction (draw : String → Except Failure String) : Layout := fun dot tree =>
  (draw dot, tree)

def deepestScript : Nat := 3000

/-- Runs a script. -/
def interpret : Program := fun call =>
  Script.Evaluation.interpret Tool.named? deepestScript call Script.Machine.givenVariables

def programDirs : List String := ["", "/bin/", "/usr/bin/"]

def program? (name : String) : Option Program :=
  programDirs.findSome? fun dir => (Text.dropStart? dir name).bind fun rest =>
    if rest = "sh" || rest = "dash" then some interpret else Tool.named? rest.toList

/-- The most bytes that a program can leave unread. More cannot even be written to it. -/
def widestPipe : Nat := 65536

def longestArgument : Nat := 131071

def operation : String := "render::render_svg"

def failed (message : String) : Failure :=
  (Failure.new .renderFailed message).withOperation operation

end Layout

namespace LayoutCommand

/-- The picture that a program printed, or why it printed none. -/
def pictureOf (command : LayoutCommand) (outcome : Layout.Outcome) : Except Failure String :=
  let failed (message : String) : Failure :=
    (Layout.failed message).withContext "program" command.program
  if !outcome.ending.isSuccess then
    .error ((failed ("'" ++ command.program ++ "' exited with " ++ outcome.ending.message)).withContext
      "stderr" (Text.trim (Text.Utf8.decode (Layout.bytesOf outcome.errors))))
  else if outcome.left.length > Layout.widestPipe then
    .error ((failed "could not write DOT to the render program").withSource
      "Broken pipe (os error 32)")
  else
    match String.fromUTF8? ⟨(Layout.bytesOf outcome.output).toArray⟩ with
    | some picture => .ok picture
    | none => .error ((failed "render output is not valid UTF-8").withSource "invalid UTF-8")

/-- Whether a program can be started with an argument. -/
def canPass (arg : String) : Bool :=
  arg.toList.all (·.toNat ≠ 0) && arg.utf8ByteSize ≤ Layout.longestArgument

def program? (command : LayoutCommand) : Option Layout.Program :=
  if command.args.all canPass then Layout.program? command.program else none

/-- Feeds a document to the program and takes what it prints. -/
def layout (command : LayoutCommand) : Layout := fun dot tree =>
  match command.program? with
  | none =>
    (.error (((Failure.renderUnavailable command.program).withOperation Layout.operation).withSource
      FileFault.notFound.message), tree)
  | some program =>
    let furnished := Layout.System.furnish tree
    let outcome := program
      { name := Layout.charsOf command.program
        args := command.args.map Layout.charsOf
        input := Layout.charsOf dot
        tree := furnished }
    (command.pictureOf outcome, Layout.System.clear tree (outcome.tree?.getD furnished))

end LayoutCommand

end CallFlow
