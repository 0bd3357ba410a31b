import CallFlow.FileTree.Fault
import CallFlow.Text.Quoted

namespace CallFlow.Corpus

/-- Why a text is no list of cases. -/
inductive TextFault where
  | unclosedBanner
  | expectedBanner (name : String)
  | strayContent
  | straySection
  | badArguments
  | unknownField (name caseName : String)
  | strayLine (line caseName : String)
  | noCases
  | noDocuments (id : String)
  deriving DecidableEq, Repr

def TextFault.message (file : String) : TextFault → String
  | unclosedBanner =>
    "unterminated banner in " ++ file ++ " (missing case name or closing separator)"
  | expectedBanner name => "expected closing banner after case '" ++ name ++ "' in " ++ file
  | strayContent => "content encountered before case header in " ++ file
  | straySection => "section declared before any case header in " ++ file
  | badArguments => "invalid args in " ++ file ++ ": missing closing quote"
  | unknownField name caseName =>
    "unsupported metadata '" ++ name ++ "' in " ++ file ++ " case " ++ caseName
  | strayLine line caseName =>
    "unexpected line '" ++ line ++ "' in " ++ file ++ " (within case " ++ caseName ++ ")"
  | noCases => "corpus file " ++ file ++ " does not contain any cases"
  | noDocuments id => "case " ++ id ++ " in " ++ file ++ " does not declare any files"

/-- Why a case cannot be evaluated. -/
inductive CaseFault where
  | missingSource
  | unknownArgument (argument : String)
  | unknownKind (kind : String)
  deriving DecidableEq, Repr

inductive Fault where
  | noRoot (path : String)
  | unreadable (file : String) (fault : FileFault)
  | badText (file : String) (fault : TextFault)
  | badCase (id : String) (fault : CaseFault)
  | noMatch (filter : Option String)
  | unwritable (file : String) (fault : FileFault)
  | noneFound (filter : Option String)
  | casesFailed (count : Nat)
  deriving DecidableEq, Repr

namespace Fault

def filterText : Option String → String
  | none => "None"
  | some term => "Some(" ++ Text.quoted term ++ ")"

def matching : Option String → String
  | none => ""
  | some term => " matching '" ++ term ++ "'"

/-- What went wrong, and then the reasons, one beneath the other. -/
def messages : Fault → List String
  | noRoot path => ["corpus root " ++ path ++ " does not exist"]
  | unreadable file fault => ["failed to read " ++ file, fault.message]
  | badText file fault => [fault.message file]
  | badCase id .missingSource => ["--source needs a value in case " ++ id]
  | badCase id (.unknownArgument argument) =>
    ["unknown argument '" ++ argument ++ "' in case " ++ id]
  | badCase id (.unknownKind kind) => ["case " ++ id, "unknown expectation kind '" ++ kind ++ "'"]
  | noMatch filter => ["no ivrflow-test cases matched filter " ++ filterText filter]
  | unwritable file fault => ["failed to update " ++ file, fault.message]
  | noneFound filter => ["no ivrflow-test cases found" ++ matching filter]
  | casesFailed count => [toString count ++ " case(s) failed"]

def message (fault : Fault) : String :=
  Text.join ": " fault.messages

def report (fault : Fault) : String :=
  match fault.messages with
  | [] => ""
  | head :: reasons =>
    head ++ String.join (reasons.map fun reason => "\n\nCaused by:\n    " ++ reason)

end Fault

end CallFlow.Corpus
