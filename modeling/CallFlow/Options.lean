import CallFlow.Config
import CallFlow.OutputFormat

namespace CallFlow

structure CommandValues where
  files : List String
  dirs : List String
  formats : List String
  outputDir : Option String
  stamp : Bool
  annotateSource : Bool
  parallel : Bool
  layoutProgram : Option String
  deriving DecidableEq, Repr

structure Options where
  files : List String
  dirs : List String
  formats : List OutputFormat
  outputDir : String
  stamp : Bool
  parallel : Bool
  annotateSource : Bool
  render : LayoutCommand
  deriving DecidableEq, Repr

namespace Options

def defaultOutputDir : String := "out"

def badFormats (message : String) : Failure :=
  (Failure.new .configInvalid message).withContext "key" "formats"

/-- The formats that were named: on the command line if there are any, else in the file. -/
def chosenFormats (values : CommandValues) (config : FileConfig) :
    Except Failure (List OutputFormat) :=
  if values.formats ≠ [] then OutputFormat.parseAll values.formats
  else
    match config.formats with
    | some names => (OutputFormat.parseAll names).mapError fun failure => badFormats failure.message
    | none => .ok OutputFormat.defaults

/-- A switch is on if either source turns it on. -/
def resolve (values : CommandValues) (config : FileConfig) : Except Failure Options := do
  let formats ← chosenFormats values config
  if formats = [] then throw (badFormats "at least one output format is required")
  return {
    files := values.files
    dirs := values.dirs
    formats
    outputDir := (values.outputDir.or config.outputDir).getD defaultOutputDir
    stamp := values.stamp || config.stamp.getD false
    parallel := values.parallel || config.parallel.getD false
    annotateSource := values.annotateSource || config.annotateSource.getD false
    render := { config.render with program := values.layoutProgram.getD config.render.program } }

end Options

end CallFlow
