import CallFlow.Batch
import CallFlow.CommandLine.Finish

namespace CallFlow

open CommandLine

/-- What the arguments ask for. -/
structure DrawCommand where
  values : CommandValues
  config : Option String
  report : Option String
  printed : Option String
  deriving DecidableEq, Repr

namespace DrawCommand

def name : String := "ivrflow"

def versionNumber : String := "0.1.0"

def rules : List OptionRule :=
  [{ long := "file", short := some 'f', takes := .texts, repeatable := true },
    { long := "dir", short := some 'd', takes := .texts, repeatable := true },
    { long := "format", short := none, takes := .text, repeatable := true },
    { long := "output-dir", short := some 'o', takes := .path, repeatable := false },
    .switch "stamp", .switch "annotate-source", .switch "parallel", .single "dot-program" .text,
    .single "config" .path, .single "report" .path, .single "stdout" .text, .version]

def valuesOf (reading : Reading) : CommandValues :=
  { files := reading.values "file"
    dirs := reading.values "dir"
    formats := reading.values "format"
    outputDir := reading.value? "output-dir"
    stamp := reading.has "stamp"
    annotateSource := reading.has "annotate-source"
    parallel := reading.has "parallel"
    layoutProgram := reading.value? "dot-program" }

/-- There are no plain arguments, and at least one document or directory has to be named. -/
def ofReading (reading : Reading) : Except Halt DrawCommand :=
  match reading.rest with
  | stray :: _ => .error (.fault (.strayArgument stray))
  | [] =>
    if !reading.has "file" && !reading.has "dir" then .error (.fault .missingInput)
    else
      .ok
        { values := valuesOf reading
          config := reading.value? "config"
          report := reading.value? "report"
          printed := reading.value? "stdout" }

def ofArguments (arguments : List String) : Except Halt DrawCommand := do
  ofReading (← CommandLine.read rules arguments)

def options (command : DrawCommand) (tree : FileTree) : Except Failure Options := do
  let config ←
    match command.config with
    | none => pure FileConfig.empty
    | some path => FileConfig.read tree path
  Options.resolve command.values config

def writeReport (command : DrawCommand) (report : Report) (tree : FileTree) :
    Except Failure FileTree :=
  match command.report with
  | none => .ok tree
  | some path => (tree.writeText path (report.toJson.pretty 0)).mapError FileFault.toFailure

def documentsFailed (report : Report) : Failure :=
  .new .unexpected
    (toString report.failed ++ " of " ++ toString report.documents.length ++ " documents failed")

def fail (printed : String) (tree : FileTree) (failure : Failure) : Finish :=
  .failure printed failure.report tree

/-- The end of a batch. The summary is printed in any case. -/
def conclude (command : DrawCommand) (batch : Batch) : Finish :=
  let printed := batch.report.summary
  match command.writeReport batch.report batch.tree with
  | .error failure => fail printed batch.tree failure
  | .ok tree =>
    if batch.report.failed > 0 then fail printed tree (documentsFailed batch.report)
    else .success printed tree

/-- The diagram that is asked for on the standard output, and the files when it is made. -/
def drawPrinted (options : Options) (format : String) (tree : FileTree) :
    Except Failure String × FileTree :=
  match OutputFormat.parse format with
  | .error failure => (.error failure, tree)
  | .ok format => options.runSingle options.render.layout format tree

def perform (command : DrawCommand) (clock : Nat) (tree : FileTree) : Finish :=
  match command.options tree with
  | .error failure => fail "" tree failure
  | .ok options =>
    match command.printed with
    | some format =>
      match drawPrinted options format tree with
      | (.error failure, tree) => fail "" tree failure
      | (.ok text, tree) => .success text tree
    | none =>
      match options.run options.render.layout clock tree with
      | .error failure => fail "" tree failure
      | .ok batch => command.conclude batch

def run (arguments : List String) (clock : Nat) (tree : FileTree) : Finish :=
  match ofArguments arguments with
  | .error halt => .halted name versionNumber tree halt
  | .ok command => command.perform clock tree

end DrawCommand

end CallFlow
