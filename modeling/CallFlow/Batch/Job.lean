import CallFlow.Compilation
import CallFlow.Diagram
import CallFlow.FileTree
import CallFlow.Layout
import CallFlow.OutputFormat
import CallFlow.Report

namespace CallFlow

/-- What all documents of a batch have in common. -/
structure Order where
  formats : List OutputFormat
  annotate : Bool
  dir : String
  layout : Layout

namespace Order

/-- The artifacts to make, those in text formats first. They cannot fail to be made, so a layout
program that does not work still leaves them written. -/
def plan (order : Order) : List OutputFormat :=
  order.formats.filter (·.isText) ++ order.formats.filter (!·.isText)

def artifactPath (order : Order) (stem : String) (format : OutputFormat) : String :=
  Path.join order.dir (stem ++ "." ++ format.extension)

/-- The text of an artifact, and the files as they are when it is made. -/
def produce (order : Order) (graph : Graph) (tree : FileTree) :
    OutputFormat → Except Failure String × FileTree
  | .text format => (.ok (graph.draw format order.annotate), tree)
  | .svg => order.layout (graph.draw .dot order.annotate) tree

def write (order : Order) (tree : FileTree) (stem : String) (format : OutputFormat)
    (content : String) : Except Failure (Artifact × FileTree) :=
  let path := order.artifactPath stem format
  match tree.writeText path content with
  | .ok tree => .ok ({ format := format.name, path }, tree)
  | .error fault =>
    .error ((fault.toFailure.withOperation "output::write_artifact").withContext "path" path)

end Order

structure StagedFailure where
  stage : Stage
  failure : Failure
  deriving DecidableEq, Repr

namespace Source

def name (path : String) : String :=
  (Path.fileName? path).getD path

def read (tree : FileTree) (path : String) : Except Failure String :=
  (tree.readText path).mapError fun fault =>
    (fault.toFailure.withOperation "pipeline::read").withContext "path" path

/-- Reads and compiles a document. -/
def load (tree : FileTree) (path : String) : Except StagedFailure Graph := do
  let text ← (read tree path).mapError (StagedFailure.mk .read)
  let graph ← (compile text).mapError fun failure =>
    ⟨.compile, failure.withContext "document" path⟩
  return graph.withSource (name path)

end Source

/-- How far the processing of a document has come. -/
inductive Progress where
  | waiting
  | drawing (graph : Graph) (pending : List OutputFormat)
  | finished (failure : Option DocumentFailure)
  deriving DecidableEq, Repr

/-- A document that is being processed, with the artifacts that were written so far. -/
structure Job where
  source : String
  stem : String
  written : List Artifact
  progress : Progress
  deriving DecidableEq, Repr

namespace Job

def start (source stem : String) : Job :=
  { source, stem, written := [], progress := .waiting }

def stop (job : Job) (failure : StagedFailure) : Job :=
  { job with progress := .finished (some (.of failure.stage failure.failure)) }

def makingStage (format : OutputFormat) : Stage :=
  if format.isText then .compile else .render

def makeArtifact (order : Order) (job : Job) (graph : Graph) (format : OutputFormat)
    (tree : FileTree) : Except StagedFailure Artifact × FileTree :=
  match order.produce graph tree format with
  | (.error failure, tree) =>
    (.error ⟨makingStage format, failure.withContext "document" job.source⟩, tree)
  | (.ok content, tree) =>
    match order.write tree job.stem format content with
    | .error failure => (.error ⟨.write, failure⟩, tree)
    | .ok (artifact, tree) => (.ok artifact, tree)

/-- One step: to read the document, to make one artifact, or to find that all are made. -/
def step (order : Order) (job : Job) (tree : FileTree) : Job × FileTree :=
  match job.progress with
  | .waiting =>
    match Source.load tree job.source with
    | .error failure => (job.stop failure, tree)
    | .ok graph => ({ job with progress := .drawing graph order.plan }, tree)
  | .drawing _ [] => ({ job with progress := .finished none }, tree)
  | .drawing graph (format :: pending) =>
    match makeArtifact order job graph format tree with
    | (.error failure, tree) => (job.stop failure, tree)
    | (.ok artifact, tree) =>
      ({ job with written := job.written ++ [artifact], progress := .drawing graph pending }, tree)
  | .finished _ => (job, tree)

/-- The number of steps after which any document is finished. -/
def stepsOf (order : Order) : Nat :=
  order.formats.length + 2

def outcome (job : Job) : DocumentOutcome :=
  { source := job.source
    artifacts := job.written
    failure :=
      match job.progress with
      | .finished failure => failure
      | _ => none }

end Job

end CallFlow
