import CallFlow.Corpus.Case
import CallFlow.Corpus.Fault

namespace CallFlow.Corpus

def commentMark : String := "$//"

def isComment (line : String) : Bool :=
  Text.startsWith (Text.trim line) commentMark

def isBlankLine (line : String) : Bool :=
  Text.trim line = ""

def shortestBanner : Nat := 5

def isBanner (line : String) : Bool :=
  let signs := Text.trimChars line.toList
  shortestBanner ≤ signs.length && signs.all (· = '=')

def headerWords (line : String) : String :=
  Text.trim (String.ofList
    ((line.toList.dropWhile (· = '-')).reverse.dropWhile (· = '-')).reverse)

def sectionOf? (line : String) : Option Section :=
  if !Text.startsWith line "---" || !Text.endsWith line "---" || line.length < 6 then none
  else
    match Text.dropStart? "file:" (headerWords line), Text.dropStart? "expect:" (headerWords line) with
    | some path, _ => some (.document (Text.trim path))
    | none, some kind => some (.expectation (Text.trim kind))
    | none, none => none

/-- A section whose lines are still being read. -/
structure OpenSection where
  head : Section
  lines : List String
  deriving DecidableEq, Repr

/-- Where a reader is: behind a first banner, behind the name after it, or in the body of a case. Text
before the first case is a body without a case. -/
inductive Position where
  | name
  | closing (current : Case)
  | body (current : Option Case) (opened : Option OpenSection)
  deriving DecidableEq, Repr

/-- A reader in the midst of a text, with the cases that are complete. -/
structure Reader where
  cases : List Case
  comments : List String
  position : Position
  deriving DecidableEq, Repr

def bodyText (lines : List String) : String :=
  let text := Text.join "\n" lines
  if text = "" then "" else terminated text

def closeSection (current : Option Case) (opened : Option OpenSection) :
    Except TextFault (Option Case) :=
  match opened, current with
  | none, current => .ok current
  | some _, none => .error .straySection
  | some opened, some current => .ok (some (current.add opened.head (bodyText opened.lines)))

/-- The text before the first colon and the text after it. -/
def splitColon? (line : String) : Option (String × String) :=
  match line.toList.dropWhile (· ≠ ':') with
  | [] => none
  | _ :: value => some (String.ofList (line.toList.takeWhile (· ≠ ':')), String.ofList value)

def setField (current : Option Case) (line : String) : Except TextFault Case :=
  match current with
  | none => .error .strayContent
  | some current =>
    match splitColon? (Text.trim line) with
    | none => .error (.strayLine line current.name)
    | some ("args", value) =>
      match Text.Words.split? (Text.trim value) with
      | none => .error .badArguments
      | some args => .ok { current with args }
    | some (field, _) => .error (.unknownField (Text.trim field) current.name)

namespace Reader

def start : Reader :=
  { cases := [], comments := [], position := .body none none }

def readLine (suite : String) (reader : Reader) (line : String) : Except TextFault Reader :=
  match reader.position with
  | .closing current =>
    if isBlankLine line then .ok reader
    else if isBanner line then .ok { reader with position := .body (some current) none }
    else .error (.expectedBanner current.name)
  | .name =>
    if isBlankLine line then .ok reader
    else
      .ok { reader with
        comments := []
        position := .closing (.new suite (slug (Text.trim line)) reader.comments) }
  | .body current opened =>
    if isBanner line then do
      let current ← closeSection current opened
      return { reader with cases := reader.cases ++ current.toList, position := .name }
    else
      match sectionOf? line, opened with
      | some head, _ => do
        let current ← closeSection current opened
        return { reader with position := .body current (some { head, lines := [] }) }
      | none, some opened =>
        .ok { reader with
          position := .body current (some { opened with lines := opened.lines ++ [line] }) }
      | none, none =>
        if isBlankLine line then .ok reader
        else do return { reader with position := .body (some (← setField current line)) none }

def step (suite : String) (reader : Reader) (line : String) : Except TextFault Reader :=
  if isComment line then .ok { reader with comments := reader.comments ++ [line] }
  else reader.readLine suite line

def finish (reader : Reader) : Except TextFault (List Case) :=
  match reader.position with
  | .body current opened => do return reader.cases ++ (← closeSection current opened).toList
  | _ => .error .unclosedBanner

end Reader

def bareLine (line : String) : String :=
  String.ofList (line.toList.reverse.dropWhile (· = '\r')).reverse

def checkCases (cases : List Case) : Except TextFault (List Case) :=
  if cases = [] then .error .noCases
  else
    match cases.find? (·.documents = []) with
    | some c => .error (.noDocuments c.id)
    | none => .ok cases

def parseCases (suite text : String) : Except TextFault (List Case) := do
  let reader ← ((Text.lines text).map bareLine).foldlM (Reader.step suite) .start
  checkCases (← reader.finish)

end CallFlow.Corpus
