import CallFlow.Failure

namespace CallFlow

/-- The sorts of trouble with files that are told apart. -/
inductive FileTrouble where
  | notFound
  | permissionDenied
  | timedOut
  | other
  deriving DecidableEq, Repr

namespace FileTrouble

def kind : FileTrouble → Failure.Kind
  | notFound => .fileNotFound
  | permissionDenied => .permissionDenied
  | timedOut => .timeout
  | other => .ioFailed

end FileTrouble

def Failure.ofFileTrouble (trouble : FileTrouble) (text : String) : Failure :=
  ((new trouble.kind text).withOperation "io").withSource text

/-- The reasons for which an operation on a file tree is refused. -/
inductive FileFault where
  | notFound
  | isDirectory
  | notDirectory
  | alreadyExists
  | nameTooLong
  | nulInName
  | invalidText
  deriving DecidableEq, Repr

namespace FileFault

def trouble : FileFault → FileTrouble
  | notFound => .notFound
  | _ => .other

/-- What is wrong, in words. -/
def reason : FileFault → String
  | notFound => "No such file or directory"
  | isDirectory => "Is a directory"
  | notDirectory => "Not a directory"
  | alreadyExists => "File exists"
  | nameTooLong => "File name too long"
  | nulInName => "file name contained an unexpected NUL byte"
  | invalidText => "stream did not contain valid UTF-8"

def number? : FileFault → Option Nat
  | notFound => some 2
  | isDirectory => some 21
  | notDirectory => some 20
  | alreadyExists => some 17
  | nameTooLong => some 36
  | nulInName | invalidText => none

def message (fault : FileFault) : String :=
  match fault.number? with
  | some number => fault.reason ++ " (os error " ++ toString number ++ ")"
  | none => fault.reason

def toFailure (fault : FileFault) : Failure :=
  .ofFileTrouble fault.trouble fault.message

end FileFault

end CallFlow
