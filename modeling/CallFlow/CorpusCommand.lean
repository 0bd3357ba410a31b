import CallFlow.CommandLine.Finish
import CallFlow.Corpus

namespace CallFlow

open CommandLine

/-- What is to be done with the cases. -/
inductive CorpusTask where
  | run (update : Bool)
  | list
  deriving DecidableEq, Repr

/-- What the arguments ask for. -/
structure CorpusCommand where
  root : String
  filter : Option String
  task : CorpusTask
  deriving DecidableEq, Repr

namespace CorpusCommand

def name : String := "ivrflow-test"

def versionNumber : String := "0.1.0"

def defaultRoot : String := "tests/corpus"

def rules : List OptionRule :=
  [.single "root" .path, .version]

def runRules : List OptionRule :=
  [.single "filter" .text, .switch "update"]

def listRules : List OptionRule :=
  [.single "filter" .text]

def readTask (rules : List OptionRule) (arguments : List String) : Except Halt Reading := do
  let reading ← CommandLine.read rules arguments
  match reading.rest with
  | [] => return reading
  | stray :: _ => throw (.fault (.strayArgument stray))

def ofArguments (arguments : List String) : Except Halt CorpusCommand := do
  let reading ← CommandLine.read rules arguments
  let root := (reading.value? "root").getD defaultRoot
  match reading.rest with
  | [] => throw (.fault .missingCommand)
  | "run" :: rest =>
    let reading ← readTask runRules rest
    return { root, filter := reading.value? "filter", task := .run (reading.has "update") }
  | "list" :: rest =>
    let reading ← readTask listRules rest
    return { root, filter := reading.value? "filter", task := .list }
  | stray :: _ => throw (.fault (.strayArgument stray))

def outcomeLines (outcome : Corpus.Outcome) : List String :=
  match outcome.verdict with
  | .passed => ["[PASS] " ++ outcome.id]
  | .updated => ["[UPD ] " ++ outcome.id]
  | .nothingExpected => ["[SKIP] " ++ outcome.id ++ " (no expectations)"]
  | .failed _ =>
    ("[FAIL] " ++ outcome.id) ::
      (Text.lines (outcome.verdict.message.getD "")).map ("        " ++ ·)

def count (outcomes : List Corpus.Outcome) (name : String) : Nat :=
  outcomes.countP (·.verdict.name = name)

def totals (outcomes : List Corpus.Outcome) : String :=
  let number (verdict : String) : String := toString (count outcomes verdict)
  "\nSummary: " ++ number "passed" ++ " passed, " ++ number "updated" ++ " updated, " ++
  number "failed" ++ " failed, " ++ number "none" ++ " skipped\n"

def fail (printed : String) (tree : FileTree) (fault : Corpus.Fault) : Finish :=
  .failure printed fault.report tree

def conclude (update : Bool) (evaluated : List Corpus.EvaluatedSuite) (tree : FileTree) : Finish :=
  let outcomes := evaluated.flatMap Corpus.EvaluatedSuite.outcomes
  let printed := Corpus.allLines (outcomes.flatMap outcomeLines)
  match if update then Corpus.writeUpdates evaluated tree else .ok tree with
  | .error fault => fail printed tree fault
  | .ok tree =>
    let printed := printed ++ totals outcomes
    match count outcomes "failed" with
    | 0 => .success printed tree
    | failures => fail printed tree (.casesFailed failures)

def listing (filter : Option String) (suites : List Corpus.Suite) : Except Corpus.Fault String :=
  match (suites.flatMap Corpus.Suite.cases).filter (Corpus.isChosen filter) with
  | [] => .error (.noneFound filter)
  | cases => .ok (Corpus.allLines (cases.map Corpus.Case.id))

def perform (command : CorpusCommand) (tree : FileTree) : Finish :=
  match Corpus.load tree command.root with
  | .error fault => fail "" tree fault
  | .ok suites =>
    match command.task with
    | .list =>
      match listing command.filter suites with
      | .error fault => fail "" tree fault
      | .ok text => .success text tree
    | .run update =>
      match Corpus.evaluate command.filter update suites with
      | .error fault => fail "" tree fault
      | .ok evaluated => conclude update evaluated tree

def run (arguments : List String) (tree : FileTree) : Finish :=
  match ofArguments arguments with
  | .error halt => .halted name versionNumber tree halt
  | .ok command => command.perform tree

end CorpusCommand

end CallFlow
