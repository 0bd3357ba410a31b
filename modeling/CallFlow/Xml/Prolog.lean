import CallFlow.Xml.Content

namespace CallFlow.Xml.Reader

/-- The spaces between the parts of the declaration, which are needed unless it ends. -/
def declarationSpaces : Reader Unit := do
  match ← peek? with
  | none => return
  | some c =>
    if isSpace c then skipSpaces
    else if !(← startsWith "?>") then fail (.wrongClass "a whitespace" c)

def declaration : Reader Unit := do
  advance 5
  declarationSpaces
  if !(← startsWith "version") then expectText "version"
  discard rawAttribute
  declarationSpaces
  if ← startsWith "encoding" then
    discard rawAttribute
    declarationSpaces
  if ← startsWith "standalone" then discard rawAttribute
  skipSpaces
  expectText "?>"

def externalId? : Reader Bool := do
  let isPublic ← startsWith "PUBLIC"
  if isPublic || (← startsWith "SYSTEM") then
    advance 6
    expectSpaces
    discard literal
    if isPublic then
      expectSpaces
      discard literal
    return true
  else return false

/-- The value of an entity, or nothing if it is kept elsewhere. -/
def entityDefinition (isGeneral : Bool) : Reader (Option Cursor) := do
  let c ← peek
  if isQuote c then return some (← literal)
  else if c = 'S' || c = 'P' then
    if !(← externalId?) then fail .badExternalId
    if isGeneral then
      skipSpaces
      if ← startsWith "NDATA" then
        advance 5
        expectSpaces
        discard skipName
    return none
  else fail (.wrongClass "a quote, SYSTEM or PUBLIC" c)

def entityDeclaration : Reader Unit := do
  advance 8
  expectSpaces
  let isParameter := (← peek?) = some '%'
  if isParameter then
    advance 1
    expectSpaces
  let name ← name
  expectSpaces
  if let some value ← entityDefinition (!isParameter) then
    modify fun scan => { scan with entities := scan.entities ++ [(name, value)] }
  skipSpaces
  expectChar '>'

def skippedDeclaration (start : Nat) : Reader Unit := do
  discard <| takeWhile (· ≠ '>')
  if (← peek?).isNone then failAt start .unknownToken
  advance 1

def internalSubset (start : Nat) : Reader Unit :=
  loop () fun _ => do
    skipSpaces
    if ← startsWith "<!ENTITY" then
      entityDeclaration
      return .again ()
    else if ← startsWith "<!--" then
      comment
      return .again ()
    else if ← startsWith "<?" then
      instruction
      return .again ()
    else if ← startsWith "]" then
      advance 1
      skipSpaces
      let c ← peek
      if c ≠ '>' then fail (.wrongClass "'>'" c)
      advance 1
      return .done ()
    else if (← startsWith "<!ELEMENT") || (← startsWith "<!ATTLIST") ||
        (← startsWith "<!NOTATION") then
      skippedDeclaration start
      return .again ()
    else fail .unknownToken

def documentType : Reader Unit := do
  let start ← offset
  advance 9
  expectSpaces
  discard skipName
  skipSpaces
  discard externalId?
  skipSpaces
  let c ← peek
  if c ≠ '[' && c ≠ '>' then fail (.wrongClass "'[' or '>'" c)
  advance 1
  if c = '[' then internalSubset start

def document : Reader Unit := do
  if ← startsWith "<?xml " then declaration
  miscellany
  skipSpaces
  if ← startsWith "<!DOCTYPE" then
    documentType
    miscellany
  skipSpaces
  if ← startsWith "<" then element
  miscellany
  if (← peek?).isSome then fail .unknownToken

end CallFlow.Xml.Reader

namespace CallFlow.Xml.Document

def start (text : List Char) : Scan :=
  { cursor := { offset := 0, rest := text }, entities := [], references := 0, tag := none
    attributes := [], declared := [], opened := [], finished := [] }

def ofChars (text : List Char) : Except Fault Document := do
  let ((), scan) ← Reader.document.run (start text)
  match scan.opened, scan.finished with
  | [], document :: _ => return document
  | [], [] => throw { cause := .noRoot, offset := 0 }
  | _ :: _, _ => throw { cause := .unclosedRoot, offset := 0 }

/-- Byte order marks before a document are no part of it. -/
def parse (text : String) : Except Failure Document :=
  let chars := (Text.dropMarks text).toList
  match ofChars chars with
  | .ok document => .ok document
  | .error fault => .error (fault.toFailure chars)

end CallFlow.Xml.Document
