import CallFlow.Text

namespace CallFlow

/-- Callers tell a bad document from a misconfigured tool or a failing layout program by the kind. -/
inductive Failure.Kind where
  | unexpected
  | configInvalid
  | invalidArgument
  | malformedInput
  | schemaError
  | unsupportedFormat
  | serializationFailed
  | renderFailed
  | renderUnavailable
  | fileNotFound
  | permissionDenied
  | ioFailed
  | traversalFailed
  | timeout
  deriving DecidableEq, Repr

namespace Failure.Kind

def all : List Kind :=
  [unexpected, configInvalid, invalidArgument, malformedInput, schemaError, unsupportedFormat,
    serializationFailed, renderFailed, renderUnavailable, fileNotFound, permissionDenied, ioFailed,
    traversalFailed, timeout]

def name : Kind → String
  | unexpected => "Unexpected"
  | configInvalid => "ConfigInvalid"
  | invalidArgument => "InvalidArgument"
  | malformedInput => "MalformedInput"
  | schemaError => "SchemaError"
  | unsupportedFormat => "UnsupportedFormat"
  | serializationFailed => "SerializationFailed"
  | renderFailed => "RenderFailed"
  | renderUnavailable => "RenderUnavailable"
  | fileNotFound => "FileNotFound"
  | permissionDenied => "PermissionDenied"
  | ioFailed => "IoFailed"
  | traversalFailed => "TraversalFailed"
  | timeout => "Timeout"

def named? (name : String) : Option Kind :=
  all.find? (·.name = name)

/-- Failures of the surroundings, which may pass by themselves. -/
def isRetryable : Kind → Bool
  | timeout | ioFailed | renderUnavailable => true
  | _ => false

/-- The document itself is at fault. -/
def isInputError : Kind → Bool
  | malformedInput | schemaError => true
  | _ => false

/-- The layout program is at fault, not the document. -/
def isRenderError : Kind → Bool
  | renderFailed | renderUnavailable => true
  | _ => false

end Failure.Kind

/-- Whether a failure may go away when the same operation is tried again. -/
inductive Failure.Status where
  | permanent
  | temporary
  | persistent
  deriving DecidableEq, Repr

namespace Failure.Status

def isRetryable : Status → Bool
  | temporary => true
  | _ => false

/-- A temporary failure becomes persistent once the caller has given up on it. -/
def persist : Status → Status
  | temporary => persistent
  | status => status

def name : Status → String
  | permanent => "permanent"
  | temporary => "temporary"
  | persistent => "persistent"

def ofKind (kind : Kind) : Status :=
  if kind.isRetryable then temporary else permanent

end Failure.Status

/-- A failed operation. The operation is empty until one is named, and `source` is the text of the
failure underneath, if there is one. -/
structure Failure where
  kind : Failure.Kind
  message : String
  status : Failure.Status
  operation : String
  context : List (String × String)
  source : Option String
  deriving DecidableEq, Repr

namespace Failure

def new (kind : Kind) (message : String) : Failure :=
  { kind, message, status := .ofKind kind, operation := "", context := [], source := none }

/-- The key under which operations named earlier are kept. -/
def calledKey : String := "called"

/-- Names the operation that failed. One named before moves to the context, so that the history
still shows which step raised the failure. -/
def withOperation (failure : Failure) (operation : String) : Failure :=
  let called := if failure.operation = "" then [] else [(calledKey, failure.operation)]
  { failure with operation, context := failure.context ++ called }

def withContext (failure : Failure) (key value : String) : Failure :=
  { failure with context := failure.context ++ [(key, value)] }

def withStatus (failure : Failure) (status : Status) : Failure :=
  { failure with status }

def withSource (failure : Failure) (source : String) : Failure :=
  { failure with source := some source }

def persist (failure : Failure) : Failure :=
  { failure with status := failure.status.persist }

def isRetryable (failure : Failure) : Bool :=
  failure.status.isRetryable

def contextValue (failure : Failure) (key : String) : Option String :=
  (failure.context.find? (·.1 = key)).map (·.2)

def contextText (context : List (String × String)) : String :=
  Text.join ", " (context.map fun (key, value) => key ++ ": " ++ value)

def display (failure : Failure) : String :=
  failure.kind.name ++ " (" ++ failure.status.name ++ ")" ++
  (if failure.operation = "" then "" else " at " ++ failure.operation) ++
  (if failure.context = [] then ""
    else ", context \x7b " ++ contextText failure.context ++ " \x7d") ++
  (if failure.message = "" then "" else " => " ++ failure.message)

/-- The failure as a block of lines, for the end of a run. -/
def report (failure : Failure) : String :=
  failure.kind.name ++ " (" ++ failure.status.name ++ ") at " ++ failure.operation ++ "\n" ++
  (if failure.message = "" then "" else "\n    Message: " ++ failure.message ++ "\n") ++
  (if failure.context = [] then ""
    else "\n    Context:\n" ++
      String.join (failure.context.map fun (key, value) => "        " ++ key ++ ": " ++ value ++ "\n")) ++
  (match failure.source with
    | none => ""
    | some source => "\n    Source: " ++ source ++ "\n")

def unsupportedFormat (format : String) : Failure :=
  (new .unsupportedFormat ("output format '" ++ format ++ "' is not supported")).withContext
    "format" format

def renderUnavailable (program : String) : Failure :=
  (new .renderUnavailable ("render program '" ++ program ++ "' could not be started")).withContext
    "program" program

def fileNotFound (path : String) : Failure :=
  (new .fileNotFound ("file '" ++ path ++ "' not found")).withContext "path" path

end Failure

end CallFlow
