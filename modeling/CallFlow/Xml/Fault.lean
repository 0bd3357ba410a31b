import CallFlow.Failure

namespace CallFlow.Xml

/-- A place in a text, counted from one in lines and in characters of the line. -/
structure Position where
  row : Nat
  column : Nat
  deriving DecidableEq, Repr

namespace Position

def text (position : Position) : String :=
  toString position.row ++ ":" ++ toString position.column

def after (before : List Char) : Position :=
  { row := 1 + before.count '\n'
    column := 1 + (before.reverse.takeWhile (· ≠ '\n')).length }

end Position

/-- The kinds of faults. A character that was found instead of another is given by the first byte
of its encoding. -/
inductive Cause where
  | wrongXmlUri
  | xmlUriElsewhere
  | reservedUri
  | reservedPrefix
  | duplicatePrefix (name : String)
  | unknownPrefix (name : String)
  | wrongCloseTag (opened closed : String)
  | strayCloseTag
  | malformedReference
  | unknownReference (name : String)
  | referenceLoop
  | unescapedMarkup
  | duplicateAttribute (name : String)
  | misplacedDeclaration
  | badName
  | badCharacter (c : Char)
  | wrongCharacter (wanted found : Char)
  | wrongClass (wanted : String) (found : Char)
  | missingText (wanted : String)
  | badExternalId
  | badComment
  | badCharacterData
  | unknownToken
  | noRoot
  | unclosedRoot
  | endOfText
  deriving DecidableEq, Repr

def leadByte (c : Char) : Char :=
  let n := c.toNat
  Char.ofNat
    (if n < 0x80 then n else if n < 0x800 then 0xC0 + n / 0x40
      else if n < 0x10000 then 0xE0 + n / 0x1000 else 0xF0 + n / 0x40000)

namespace Cause

def isPlaceless : Cause → Bool
  | noRoot | unclosedRoot | endOfText => true
  | _ => false

def quotedCharacter (c : Char) : String :=
  let digits := String.ofList (Nat.toDigits 16 c.toNat)
  "'" ++ (if c.toNat = 0 then "\\0" else "\\u\x7b" ++ digits ++ "\x7d") ++ "'"

def quoted (text : String) : String :=
  "'" ++ text ++ "'"

def message (cause : Cause) (place : String) : String :=
  match cause with
  | wrongXmlUri => "'xml' namespace prefix mapped to wrong URI at " ++ place
  | xmlUriElsewhere => "the 'xml' namespace URI is used for not 'xml' prefix at " ++ place
  | reservedUri => "the 'xmlns' URI is used at " ++ place ++ ", but it must not be declared"
  | reservedPrefix => "the 'xmlns' prefix is used at " ++ place ++ ", but it must not be"
  | duplicatePrefix name => "namespace " ++ quoted name ++ " at " ++ place ++ " is already defined"
  | unknownPrefix name => "an unknown namespace prefix " ++ quoted name ++ " at " ++ place
  | wrongCloseTag opened closed =>
    "expected " ++ quoted opened ++ " tag, not " ++ quoted closed ++ " at " ++ place
  | strayCloseTag => "unexpected close tag at " ++ place
  | malformedReference => "malformed entity reference at " ++ place
  | unknownReference name => "unknown entity reference " ++ quoted name ++ " at " ++ place
  | referenceLoop => "a possible entity reference loop is detected at " ++ place
  | unescapedMarkup => "unescaped '<' found at " ++ place
  | duplicateAttribute name =>
    "attribute " ++ quoted name ++ " at " ++ place ++ " is already defined"
  | misplacedDeclaration => "unexpected XML declaration at " ++ place
  | badName => "invalid name token at " ++ place
  | badCharacter c => "a non-XML character " ++ quotedCharacter c ++ " found at " ++ place
  | wrongCharacter wanted found =>
    "expected " ++ quoted (String.singleton wanted) ++ " not " ++
      quoted (String.singleton (leadByte found)) ++ " at " ++ place
  | wrongClass wanted found =>
    "expected " ++ wanted ++ " not " ++ quoted (String.singleton (leadByte found)) ++ " at " ++
      place
  | missingText wanted => "expected " ++ quoted wanted ++ " at " ++ place
  | badExternalId => "invalid ExternalID at " ++ place
  | badComment => "comment at " ++ place ++ " contains '--'"
  | badCharacterData => "']]>' at " ++ place ++ " is not allowed inside a character data"
  | unknownToken => "unknown token at " ++ place
  | noRoot => "the document does not have a root node"
  | unclosedRoot => "the root node was opened but never closed"
  | endOfText => "unexpected end of stream"

end Cause

/-- A fault, with the number of characters before it. -/
structure Fault where
  cause : Cause
  offset : Nat
  deriving DecidableEq, Repr

namespace Fault

def position (fault : Fault) (text : List Char) : Position :=
  if fault.cause.isPlaceless then Position.after [] else Position.after (text.take fault.offset)

def toFailure (fault : Fault) (text : List Char) : Failure :=
  let position := fault.position text
  (((Failure.new .malformedInput (fault.cause.message position.text)).withOperation
    "xml::parse_document").withContext "line" (toString position.row)).withContext
    "column" (toString position.column)

end Fault

end CallFlow.Xml
