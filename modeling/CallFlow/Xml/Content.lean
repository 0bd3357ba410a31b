import CallFlow.Xml.Tag
import CallFlow.Xml.TextRun

namespace CallFlow.Xml.Reader

def atText (ending : String) (rest : List Char) : Bool :=
  ending.toList.isPrefixOf rest

def comment : Reader Unit := do
  let start ← offset
  advance 4
  let chars ← takeUntil (atText "-->")
  expectText "-->"
  if Text.hasInfix ['-', '-'] chars || chars.getLast? = some '-' then failAt start .badComment

/-- Reads a processing instruction, which must not look like the declaration of a document. -/
def instruction : Reader Unit := do
  if ← startsWith "<?xml " then fail .misplacedDeclaration
  advance 2
  discard name
  skipSpaces
  discard <| takeUntil (atText "?>")
  expectText "?>"

def miscellany : Reader Unit :=
  loop () fun _ => do
    skipSpaces
    if ← startsWith "<!--" then
      comment
      return .again ()
    else if ← startsWith "<?" then
      instruction
      return .again ()
    else return .done ()

def addText (chars : List Char) : Reader Unit :=
  modify fun scan =>
    match scan.opened with
    | [] => scan
    | parent :: others =>
      let parent := { parent with children := .text (String.ofList chars) :: parent.children }
      { scan with opened := parent :: others }

def characterData : Reader Unit := do
  advance 9
  let chars ← takeUntil (atText "]]>")
  expectText "]]>"
  addText (normalizeLineEnds chars)

/-- Reads the text up to the next tag, with its references expanded. A character that is referred
to stands for itself, but inside an entity it is read like any other. -/
def text (nested : Bool) (expand : Cursor → Reader Unit) : Reader Unit := do
  let start ← offset
  let chars ← takeUntil (·.head? = some '<')
  if Text.hasInfix "]]>".toList chars then fail .badCharacterData
  within { offset := start, rest := chars } do
    let run ← loop TextRun.empty fun run => do
      if (← peek?) = some '&' then
        match ← reference with
        | (.entity name, start) =>
          addText run.chars
          expand (← entityNamed name start)
          return .again .empty
        | (.char c, _) =>
          if nested then return .again (run.push c (← rest).isEmpty)
          else return .again (run.pushVerbatim c)
      else
        let chars ← takeWhile (· ≠ '&')
        return .again (run.pushAll chars (← rest).isEmpty)
    addText run.chars

/-- Reads content up to the close tag that ends it, with so many levels of entities left. The state
of the loop is the number of close tags that are missing. -/
def content (levels : Nat) (expand : Cursor → Reader Unit) : Reader Unit :=
  discard <| loop 1 fun missing => do
    if ← startsWith "<!--" then
      comment
      return .again missing
    else if ← startsWith "<![CDATA[" then
      characterData
      return .again missing
    else if ← startsWith "<!" then fail .unknownToken
    else if ← startsWith "<?" then
      instruction
      return .again missing
    else if ← startsWith "</" then
      closeTag
      return if missing = 1 then .done 0 else .again (missing - 1)
    else if ← startsWith "<" then
      if (← rest).tail.isEmpty then fail .unknownToken
      return .again (if ← startTag levels then missing + 1 else missing)
    else
      text (isNested levels) expand
      return .again missing

def entityContent : Nat → Cursor → Reader Unit
  | 0, _ => fail .referenceLoop
  | levels + 1, value => inEntity (levels + 1) value (content levels (entityContent levels))

def element : Reader Unit := do
  if ← startTag maxDepth then content maxDepth (entityContent maxDepth)

end CallFlow.Xml.Reader
