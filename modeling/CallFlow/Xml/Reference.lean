import CallFlow.Xml.Scan

namespace CallFlow.Xml

inductive Reference where
  | char (c : Char)
  | entity (name : String)

namespace Reference

def valueBound : Nat := 4294967296

def value? (base : Nat) (digits : List Char) : Option Nat :=
  if digits.isEmpty then none
  else
    let value := digits.foldl (fun value digit => value * base + digitValue digit) 0
    if value < valueBound then some value else none
where
  /-- The value of one hexadecimal digit. -/
  digitValue (c : Char) : Nat :=
    if c.isDigit then c.toNat - '0'.toNat else c.toLower.toNat - 'a'.toNat + 10

def isHexDigit (c : Char) : Bool :=
  c.isDigit || ('a' ≤ c.toLower && c.toLower ≤ 'f')

/-- The character with a number. Numbers of no character stand for the replacement character. -/
def charOf? (value : Nat) : Option Char :=
  let c := if value.isValidChar then Char.ofNat value else Char.ofNat 0xFFFD
  if isXmlChar c then some c else none

def numeric? (base : Nat) (digits : List Char) : Option Reference :=
  (value? base digits).bind charOf? |>.map char

def named : List (String × Char) :=
  [("quot", '"'), ("amp", '&'), ("apos", '\''), ("lt", '<'), ("gt", '>')]

def ofName (name : String) : Reference :=
  match named.lookup name with
  | some c => char c
  | none => entity name

def nameOf? (chars : List Char) : Option Reference :=
  if chars.head?.any isNameStart then some (ofName (String.ofList chars)) else none

/-- The reference that the characters after an ampersand make, with the number of characters up to
and including the semicolon. -/
def parse? (chars : List Char) : Option (Reference × Nat) := do
  match chars with
  | '#' :: 'x' :: rest => closed (numeric? 16 (rest.takeWhile isHexDigit)) 2 isHexDigit rest
  | '#' :: rest => closed (numeric? 10 (rest.takeWhile Char.isDigit)) 1 Char.isDigit rest
  | rest => closed (nameOf? (rest.takeWhile isNameChar)) 0 isNameChar rest
where
  /-- A reference ends at a semicolon. -/
  closed (reference : Option Reference) (skipped : Nat) (p : Char → Bool) (rest : List Char) :
      Option (Reference × Nat) := do
    let reference ← reference
    match rest.dropWhile p with
    | ';' :: _ => some (reference, skipped + (rest.takeWhile p).length + 1)
    | _ => none

end Reference

namespace Reader

/-- How deep entities may nest. -/
def maxDepth : Nat := 10

/-- Whether an entity is being expanded when so many levels are left. -/
def isNested (levels : Nat) : Bool :=
  levels < maxDepth

/-- How many references may be met while one is being expanded. -/
def maxReferences : Nat := 255

def reference : Reader (Reference × Nat) := do
  let start ← offset
  match Reference.parse? ((← rest).drop 1) with
  | some (reference, length) =>
    advance (length + 1)
    return (reference, start)
  | none => failAt start .malformedReference

/-- The value of an entity, at the place where it was declared. -/
def entityNamed (name : String) (start : Nat) : Reader Cursor := do
  match (← get).entities.lookup name with
  | some value => return value
  | none => failAt start (.unknownReference name)

def inEntity {α : Type} (levels : Nat) (value : Cursor) (read : Reader α) : Reader α := do
  let outer ← get
  if isNested levels then
    if outer.references = maxReferences then fail .referenceLoop
    modify fun scan => { scan with references := scan.references + 1 }
  modify fun scan => { scan with tag := none }
  let result ← within value read
  modify fun scan => { scan with tag := outer.tag }
  if levels = maxDepth then modify fun scan => { scan with references := 0 }
  return result

end Reader

end CallFlow.Xml
