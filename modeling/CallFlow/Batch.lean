import CallFlow.Batch.Job
import CallFlow.Discovery
import CallFlow.Options
import CallFlow.Stem

namespace CallFlow

/-- Documents that are being processed, and the files as they are by now. -/
structure Batch where
  jobs : List Job
  tree : FileTree

namespace Batch

/-- Takes one step of the document at a position. -/
def advance (order : Order) (batch : Batch) (position : Nat) : Batch :=
  match batch.jobs[position]? with
  | none => batch
  | some job =>
    let (job, tree) := job.step order batch.tree
    { jobs := batch.jobs.set position job, tree }

def follow (order : Order) (batch : Batch) (schedule : List Nat) : Batch :=
  schedule.foldl (advance order) batch

/-- One document after the other. -/
def sequential (order : Order) (count : Nat) : List Nat :=
  (List.range count).flatMap fun position => List.replicate (Job.stepsOf order) position

/-- All documents in turn, one step at a time. -/
def alternating (order : Order) (count : Nat) : List Nat :=
  (List.replicate (Job.stepsOf order) (List.range count)).flatten

def schedule (order : Order) (parallel : Bool) (count : Nat) : List Nat :=
  if parallel then alternating order count else sequential order count

def report (batch : Batch) : Report :=
  { documents := batch.jobs.map Job.outcome }

def start (sources : List String) (stamp : Option Nat) (tree : FileTree) : Batch :=
  { jobs := sources.zipWith Job.start (Stem.assign sources stamp), tree }

/-- Makes the directory of the artifacts. -/
def prepare (tree : FileTree) (dir : String) : Except Failure FileTree :=
  (tree.makeDirectories dir).mapError fun fault =>
    (fault.toFailure.withOperation "output::create_dir").withContext "dir" dir

end Batch

namespace Options

def order (options : Options) (layout : Layout) : Order :=
  { formats := options.formats, annotate := options.annotateSource, dir := options.outputDir, layout }

/-- Processes documents. Only a directory that cannot be made fails the batch as a whole. The clock
gives the stamp of the run. -/
def process (options : Options) (layout : Layout) (clock : Nat) (sources : List String)
    (tree : FileTree) : Except Failure Batch := do
  let tree ← Batch.prepare tree options.outputDir
  let order := options.order layout
  let batch := Batch.start sources (if options.stamp then some clock else none) tree
  return batch.follow order (Batch.schedule order options.parallel sources.length)

/-- Finds the documents and processes them all. -/
def run (options : Options) (layout : Layout) (clock : Nat) (tree : FileTree) :
    Except Failure Batch := do
  let sources ← Discovery.sources tree options.files options.dirs
  options.process layout clock sources tree

def drawOne (options : Options) (layout : Layout) (format : OutputFormat) (source : String)
    (tree : FileTree) : Except Failure String × FileTree :=
  match Source.load tree source with
  | .error staged => (.error staged.failure, tree)
  | .ok graph => (options.order layout).produce graph tree format

/-- The text of the only document in one format. -/
def runSingle (options : Options) (layout : Layout) (format : OutputFormat) (tree : FileTree) :
    Except Failure String × FileTree :=
  match Discovery.sources tree options.files options.dirs with
  | .error failure => (.error failure, tree)
  | .ok [source] => options.drawOne layout format source tree
  | .ok sources =>
    (.error ((Failure.new .invalidArgument
      ("--stdout needs exactly one input document, found " ++ toString sources.length)).withOperation
      "run_single"), tree)

end Options

end CallFlow
