import CallFlow.Json
import CallFlow.Failure

namespace CallFlow

/-- The steps in which a document is processed. -/
inductive Stage where
  | read
  | compile
  | render
  | write
  deriving DecidableEq, Repr

namespace Stage

def name : Stage → String
  | read => "read"
  | compile => "compile"
  | render => "render"
  | write => "write"

def named? (name : String) : Option Stage :=
  [read, compile, render, write].find? (·.name = name)

end Stage

/-- Why the processing of a document stopped. The kind is given by its name. -/
structure DocumentFailure where
  stage : Stage
  kind : String
  message : String
  deriving DecidableEq, Repr

def DocumentFailure.of (stage : Stage) (failure : Failure) : DocumentFailure :=
  { stage, kind := failure.kind.name, message := failure.display }

/-- A file that was written for a document. -/
structure Artifact where
  format : String
  path : String
  deriving DecidableEq, Repr

/-- What came of one document. Artifacts that were written before a failure are kept. -/
structure DocumentOutcome where
  source : String
  artifacts : List Artifact
  failure : Option DocumentFailure
  deriving DecidableEq, Repr

namespace DocumentOutcome

def isSuccess (outcome : DocumentOutcome) : Bool :=
  outcome.failure.isNone

def summaryLines (outcome : DocumentOutcome) : List String :=
  (match outcome.failure with
    | none => "ok      " ++ outcome.source
    | some failure =>
      "FAILED  " ++ outcome.source ++ " [" ++ failure.stage.name ++ "] " ++ failure.message) ::
  outcome.artifacts.map fun artifact => "        -> " ++ artifact.path

def failureJson (failure : DocumentFailure) : Json :=
  .obj [("stage", .str failure.stage.name), ("kind", .str failure.kind),
    ("message", .str failure.message)]

/-- A failure is left out if there is none. -/
def toJson (outcome : DocumentOutcome) : Json :=
  .obj ([("source", .str outcome.source),
    ("artifacts", .arr (outcome.artifacts.map fun artifact =>
      .obj [("format", .str artifact.format), ("path", .str artifact.path)]))] ++
    outcome.failure.toList.map fun failure => ("failure", failureJson failure))

end DocumentOutcome

/-- What came of all documents, in the order in which they were given. -/
structure Report where
  documents : List DocumentOutcome
  deriving DecidableEq, Repr

namespace Report

def failed (report : Report) : Nat :=
  report.documents.countP (!·.isSuccess)

def succeeded (report : Report) : Nat :=
  report.documents.length - report.failed

def totals (report : Report) : String :=
  toString report.documents.length ++ " documents, " ++ toString report.succeeded ++
  " succeeded, " ++ toString report.failed ++ " failed"

/-- A listing with a block of lines for each document. -/
def summary (report : Report) : String :=
  String.join
    ((report.documents.flatMap DocumentOutcome.summaryLines ++ [report.totals]).map (· ++ "\n"))

def toJson (report : Report) : Json :=
  .obj [("documents", .arr (report.documents.map DocumentOutcome.toJson)),
    ("succeeded", .num report.succeeded), ("failed", .num report.failed)]

end Report

end CallFlow
