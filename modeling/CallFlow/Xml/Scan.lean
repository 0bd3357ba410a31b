import CallFlow.Xml.Character
import CallFlow.Xml.Fault
import CallFlow.Xml.Node

namespace CallFlow.Xml

/-- A stretch of the document that is being read: what is left of it, and the number of characters
of the document before that. -/
structure Cursor where
  offset : Nat
  rest : List Char

namespace Cursor

def advance (cursor : Cursor) (count : Nat) : Cursor :=
  { offset := cursor.offset + count, rest := cursor.rest.drop count }

end Cursor

/-- A name with its namespace prefix, which is empty if there is none. -/
structure QualifiedName where
  space : String
  name : String
  deriving DecidableEq

namespace QualifiedName

def text (name : QualifiedName) : String :=
  if name.space = "" then name.name else name.space ++ ":" ++ name.name

end QualifiedName

/-- A name with the place where it, or the attribute that it names, begins. -/
structure PlacedName where
  name : QualifiedName
  offset : Nat

/-- An element whose close tag has not been read. Its children are kept in reverse. -/
structure OpenElement where
  name : QualifiedName
  bindings : List (String × String)
  children : List Node

/-- The state of a reader. `tag` is the last start tag of the entity being read; `attributes` and
`declared` are what the start tag being read has named so far. -/
structure Scan where
  cursor : Cursor
  entities : List (String × Cursor)
  references : Nat
  tag : Option PlacedName
  attributes : List PlacedName
  declared : List (String × String)
  opened : List OpenElement
  finished : List Document

abbrev Reader := StateT Scan (Except Fault)

namespace Reader

def offset : Reader Nat :=
  return (← get).cursor.offset

def failAt {α : Type} (offset : Nat) (cause : Cause) : Reader α :=
  throw { cause, offset }

def fail {α : Type} (cause : Cause) : Reader α := do
  failAt (← offset) cause

def rest : Reader (List Char) :=
  return (← get).cursor.rest

def peek? : Reader (Option Char) :=
  return (← rest).head?

def peek : Reader Char := do
  match ← peek? with
  | some c => return c
  | none => fail .endOfText

def setCursor (cursor : Cursor) : Reader Unit :=
  modify fun scan => { scan with cursor }

def advance (count : Nat) : Reader Unit :=
  modify fun scan => { scan with cursor := scan.cursor.advance count }

def startsWith (text : String) : Reader Bool :=
  return text.toList.isPrefixOf (← rest)

def takeWhile (p : Char → Bool) : Reader (List Char) := do
  let taken := (← rest).takeWhile p
  advance taken.length
  return taken

def skipSpaces : Reader Unit :=
  discard <| takeWhile isSpace

/-- The number of the first place where `stop` holds of what is left, if so many lie before. -/
def stopAt (stop : List Char → Bool) : (place : Nat) → List Char → Nat
  | place, [] => place
  | place, c :: cs => if stop (c :: cs) then place else stopAt stop (place + 1) cs

def before (stop : List Char → Bool) (chars : List Char) : List Char :=
  chars.take (stopAt stop 0 chars)

/-- Reads up to the place where `stop` holds, or to the end. All characters have to be XML
characters. -/
def takeUntil (stop : List Char → Bool) : Reader (List Char) := do
  let taken := before stop (← rest)
  let good := taken.takeWhile isXmlChar
  match taken.drop good.length with
  | [] =>
    advance taken.length
    return taken
  | bad :: _ => failAt ((← offset) + good.length) (.badCharacter bad)

def expectText (text : String) : Reader Unit := do
  if ← startsWith text then advance text.length
  else fail (.missingText text)

def expectChar (c : Char) : Reader Unit := do
  let found ← peek
  if found = c then advance 1 else fail (.wrongCharacter c found)

def expectSpaces : Reader Unit := do
  let found ← peek
  if isSpace found then skipSpaces else fail (.wrongClass "a whitespace" found)

def isQuote (c : Char) : Bool :=
  c == '"' || c == '\''

def expectQuote : Reader Char := do
  let found ← peek
  if isQuote found then
    advance 1
    return found
  else fail (.wrongClass "a quote" found)

/-- Reads a name, which may be missing only at the end of the text. -/
def skipName : Reader (List Char) := do
  match ← rest with
  | [] => return []
  | c :: _ => if isNameStart c then takeWhile isNameChar else fail .badName

def name : Reader String := do
  let start ← offset
  let chars ← skipName
  if chars.isEmpty then failAt start .badName else return String.ofList chars

/-- The parts of a name before and after its colon, if it has at most one. -/
def splitName? (chars : List Char) : Option QualifiedName :=
  match Text.pieces ':' chars with
  | [name] => check [] name
  | [space, name] => check space name
  | _ => none
where
  /-- Neither part may begin with a character that only continues names. -/
  check (space name : List Char) : Option QualifiedName :=
    if space.head?.all isNameStart && name.head?.any isNameStart then
      some { space := String.ofList space, name := String.ofList name }
    else none

def qualifiedName : Reader QualifiedName := do
  let start ← offset
  match splitName? (← takeWhile fun c => isNameChar c || c == ':') with
  | some name => return name
  | none => failAt start .badName

/-- How a step of a loop ends. -/
inductive Turn (σ : Type) where
  | again (state : σ)
  | done (state : σ)

/-- Repeats a step until it is done or the text ends. A step that reads nothing is the last. There
can be no more steps than there are characters in the list. -/
def loopAlong {σ : Type} (step : σ → Reader (Turn σ)) : List Char → σ → Scan →
    Except Fault (σ × Scan)
  | [], state, scan => .ok (state, scan)
  | _ :: bound, state, scan =>
    if scan.cursor.rest.isEmpty then .ok (state, scan)
    else
      match step state scan with
      | .error fault => .error fault
      | .ok (.done state, scan) => .ok (state, scan)
      | .ok (.again state, next) =>
        if next.cursor.offset = scan.cursor.offset then .ok (state, next)
        else loopAlong step bound state next

def loop {σ : Type} (state : σ) (step : σ → Reader (Turn σ)) : Reader σ := fun scan =>
  loopAlong step scan.cursor.rest state scan

/-- Reads another stretch of the document and then goes on at the present place. -/
def within {α : Type} (stretch : Cursor) (read : Reader α) : Reader α := do
  let here := (← get).cursor
  setCursor stretch
  let result ← read
  setCursor here
  return result

/-- Reads a literal up to the quote that opened it, whatever it holds. -/
def literal : Reader Cursor := do
  let quote ← expectQuote
  let start ← offset
  let chars ← takeWhile (· ≠ quote)
  expectChar quote
  return { offset := start, rest := chars }

end Reader

end CallFlow.Xml
