import CallFlow.Corpus.Reader
import CallFlow.Corpus.Verdict
import CallFlow.FileTree

namespace CallFlow.Corpus

/-- The cases of one file. A suite is dirty when its cases are no longer those of its file. -/
structure Suite where
  place : Place
  name : String
  cases : List Case
  isDirty : Bool := false
  deriving DecidableEq, Repr

def caseExtension : String := "ivrflow"

/-- The name of a file without its extension. A dot that stands alone before the extension names no
file, and then the dot of the extension stays. -/
def bareName (name : String) : String :=
  let stem := Path.stemOf name
  if stem = "." then ".." else stem

/-- The name of a suite: the names below the root of the corpus, the last one without its extension. -/
def suiteName (names : List String) : String :=
  let stem := (names.getLast?.map bareName).toList
  String.ofList
    ((Text.join "/" (names.dropLast ++ stem)).toList.map fun c => if c = '\\' then '/' else c)

/-- A file in which cases are kept, with the names that lead to it. -/
structure CaseFile where
  place : Place
  names : List String
  content : Content

def caseFiles (tree : FileTree) (root : Place) : List CaseFile :=
  let files := tree.items.filterMap fun (place, item) =>
    match item with
    | .directory => none
    | .file content =>
      if root.isPrefixOf place && place.getLast?.bind Path.extensionOf? = some caseExtension then
        some { place, names := place.drop root.length, content }
      else none
  files.mergeSort fun a b => Path.lessOrEqual a.names b.names

def loadFile (file : CaseFile) : Except Fault Suite :=
  let path := Path.fromRoot file.place
  let name := suiteName file.names
  match file.content with
  | .binary _ => .error (.unreadable path .invalidText)
  | .text text =>
    match parseCases name text with
    | .error fault => .error (.badText path fault)
    | .ok cases => .ok { place := file.place, name, cases }

/-- All suites below a directory. -/
def load (tree : FileTree) (root : String) : Except Fault (List Suite) :=
  match tree.locate root with
  | .error _ => .error (.noRoot root)
  | .ok place =>
    match tree.item? place with
    | none => .error (.noRoot root)
    | some _ => (caseFiles tree place).mapM loadFile

/-- What came of the case with an identifier. -/
structure Outcome where
  id : String
  verdict : Verdict
  deriving DecidableEq, Repr

/-- Without a filter all cases are chosen, and else those whose identifier contains it. -/
def isChosen (filter : Option String) (c : Case) : Bool :=
  filter.all (Text.contains c.id)

/-- A case after its evaluation, with its outcome if it was chosen. -/
structure Evaluated where
  result : Case
  isMutated : Bool
  outcome : Option Outcome
  deriving DecidableEq, Repr

def evaluateCase (filter : Option String) (update : Bool) (c : Case) : Except Fault Evaluated :=
  if isChosen filter c then
    match c.evaluate update with
    | (.error fault, _) => .error (.badCase c.id fault)
    | (.ok { verdict, isMutated }, result) =>
      .ok { result, isMutated, outcome := some { id := c.id, verdict } }
  else .ok { result := c, isMutated := false, outcome := none }

/-- A suite after its evaluation. It is to be written if it is dirty. -/
structure EvaluatedSuite where
  suite : Suite
  outcomes : List Outcome
  deriving DecidableEq, Repr

def EvaluatedSuite.isChanged (evaluated : EvaluatedSuite) : Bool :=
  evaluated.suite.isDirty

/-- Evaluates the chosen cases of a suite. A case that changes makes the suite dirty, and nothing
makes it clean again. -/
def evaluateSuite (filter : Option String) (update : Bool) (suite : Suite) :
    Except Fault EvaluatedSuite := do
  let cases ← suite.cases.mapM (evaluateCase filter update)
  return {
    suite := { suite with
      cases := cases.map Evaluated.result
      isDirty := suite.isDirty || cases.any Evaluated.isMutated }
    outcomes := cases.filterMap Evaluated.outcome }

def evaluate (filter : Option String) (update : Bool) (suites : List Suite) :
    Except Fault (List EvaluatedSuite) := do
  let evaluated ← suites.mapM (evaluateSuite filter update)
  if evaluated.all (·.outcomes = []) then throw (.noMatch filter)
  return evaluated

def writeSuite (tree : FileTree) (suite : Suite) : Except Fault FileTree :=
  (tree.writeText (Path.fromRoot suite.place) (casesText suite.cases)).mapError
    (.unwritable (Path.fromRoot suite.place))

def writeUpdates (evaluated : List EvaluatedSuite) (tree : FileTree) : Except Fault FileTree :=
  ((evaluated.filter EvaluatedSuite.isChanged).map EvaluatedSuite.suite).foldlM writeSuite tree

end CallFlow.Corpus
