import CallFlow.Distinct
import CallFlow.Text

namespace CallFlow.Ignore

abbrev Byte := UInt8

def slash : Byte := 0x2F

/-- A part of a pattern. A group stands for each of its alternatives. -/
inductive Token where
  | literal (byte : Byte)
  | anyByte
  | anyName
  | leadingNames
  | innerNames
  | trailingNames
  | anything
  | oneOf (negated : Bool) (ranges : List (Byte × Byte))
  | group (alternatives : List (List Token))

abbrev Glob := List Token

/-- What may be left after a part of one name was taken. -/
def restsInName : List Byte → List (List Byte)
  | [] => [[]]
  | b :: rest => (b :: rest) :: if b = slash then [] else restsInName rest

/-- What may be left after names up to some slash were taken. -/
def restsAfterSlash : List Byte → List (List Byte)
  | [] => []
  | b :: rest => if b = slash then rest :: restsAfterSlash rest else restsAfterSlash rest

/-- Every way to take a part off the end of a text, from nothing to all. -/
def restsAnywhere : List Byte → List (List Byte)
  | [] => [[]]
  | b :: rest => (b :: rest) :: restsAnywhere rest

mutual

/-- Whether a part of a pattern says nothing at all. -/
def Token.isVoid : Token → Bool
  | .group alternatives => areVoid alternatives
  | _ => false

def Glob.isVoid : List Token → Bool
  | [] => true
  | token :: glob => token.isVoid && Glob.isVoid glob

def areVoid : List (List Token) → Bool
  | [] => true
  | glob :: globs => Glob.isVoid glob && areVoid globs

end

mutual

/-- What may be left of a text after the part of a pattern took its beginning. Alternatives that say
nothing do not count, unless there are no others. -/
def Token.rests : Token → List Byte → List (List Byte)
  | .literal byte, b :: rest => if b = byte then [rest] else []
  | .anyByte, b :: rest => if b = slash then [] else [rest]
  | .oneOf negated ranges, b :: rest =>
    if (ranges.any fun (first, last) => first ≤ b && b ≤ last) = negated then [] else [rest]
  | .anyName, text => restsInName text
  | .leadingNames, text => text :: restsAfterSlash text
  | .innerNames, b :: rest => if b = slash then rest :: restsAfterSlash rest else []
  | .trailingNames, b :: rest => if b = slash then restsAnywhere rest else []
  | .anything, text => restsAnywhere text
  | .group alternatives, text =>
    if areVoid alternatives then [text] else restsOfAny alternatives text
  | _, [] => []

/-- What may be left of one of some texts, all of which end alike, after a pattern took its
beginning. Of equal ones, only one is kept. -/
def Glob.restsOf : List Token → List (List Byte) → List (List Byte)
  | [], texts => texts
  | token :: glob, texts => Glob.restsOf glob (distinctBy List.length (texts.flatMap token.rests))

def restsOfAny : List (List Token) → List Byte → List (List Byte)
  | [], _ => []
  | glob :: globs, text =>
    (if Glob.isVoid glob then [] else Glob.restsOf glob [text]) ++ restsOfAny globs text

end

def Glob.covers (glob : Glob) (text : List Byte) : Bool :=
  (Glob.restsOf glob [text]).contains []

/-- Why a pattern cannot be read. -/
inductive GlobFault where
  | invalidRange (first last : Char)
  | unopenedGroup
  | unclosedGroup
  | danglingEscape
  deriving DecidableEq, Repr

def GlobFault.message : GlobFault → String
  | invalidRange first last =>
    "invalid range; '" ++ first.toString ++ "' > '" ++ last.toString ++ "'"
  | unopenedGroup =>
    "unopened alternate group; missing '\x7b' (maybe escape '\x7d' with '[\x7d]'?)"
  | unclosedGroup =>
    "unclosed alternate group; missing '\x7d' (maybe escape '\x7b' with '[\x7b]'?)"
  | danglingEscape => "dangling '\\'"

/-- A pattern that is being read: the parts of the present alternative, and for each open group what
stands before it with the alternatives that have ended, the innermost group first. -/
structure Draft where
  glob : Glob
  groups : List (Glob × List Glob)

namespace Draft

def start : Draft := { glob := [], groups := [] }

def push (draft : Draft) (token : Token) : Draft :=
  { draft with glob := draft.glob ++ [token] }

def pushChar (draft : Draft) (c : Char) : Draft :=
  c.toString.toUTF8.toList.foldl (fun draft byte => draft.push (.literal byte)) draft

def pop (draft : Draft) : Draft :=
  { draft with glob := draft.glob.dropLast }

def openGroup (draft : Draft) : Draft :=
  { glob := [], groups := (draft.glob, []) :: draft.groups }

def endAlternative (draft : Draft) : Draft :=
  match draft.groups with
  | [] => draft
  | (before, ended) :: outer => { glob := [], groups := (before, ended ++ [draft.glob]) :: outer }

def closeGroup (draft : Draft) : Except GlobFault Draft :=
  match draft.groups with
  | [] => .error .unopenedGroup
  | (before, ended) :: outer =>
    .ok { glob := before ++ [.group (ended ++ [draft.glob])], groups := outer }

end Draft

/-- The characters of a class up to its closing bracket, as ranges. -/
structure ClassDraft where
  ranges : List (Char × Char)
  isRange : Bool

namespace ClassDraft

def start : ClassDraft := { ranges := [], isRange := false }

/-- Adds a character, which ends the last range if a hyphen stood before it. -/
def push (draft : ClassDraft) (c : Char) : Except GlobFault ClassDraft :=
  match draft.isRange, draft.ranges.getLast? with
  | true, some (first, _) =>
    if c < first then .error (.invalidRange first c)
    else .ok { ranges := draft.ranges.dropLast ++ [(first, c)], isRange := false }
  | _, _ => .ok { ranges := draft.ranges ++ [(c, c)], isRange := false }

/-- The bytes of the characters. A range goes from the last byte of one to the first of the
other. -/
def byteRanges (first last : Char) : List (Byte × Byte) :=
  let bytes := first.toString.toUTF8.toList
  let others := last.toString.toUTF8.toList
  let single (bytes : List Byte) := bytes.map fun b => (b, b)
  if first = last then single bytes
  else single bytes.dropLast ++ [(bytes.getLastD 0, others.headD 0)] ++ single others.tail

/-- The token of a class that is complete. A hyphen at the end stands for itself. -/
def token (draft : ClassDraft) (negated : Bool) : Token :=
  let ranges := if draft.isRange then draft.ranges ++ [('-', '-')] else draft.ranges
  .oneOf negated (ranges.flatMap fun (first, last) => byteRanges first last)

end ClassDraft

/-- Reads a class after its opening bracket, unless it is never closed. A bracket or a hyphen at
the start stands for itself. -/
def readClass (negated : Bool) :
    Bool → ClassDraft → List Char → Except GlobFault (Option (Token × List Char))
  | _, _, [] => .ok none
  | isFirst, draft, c :: rest =>
    if c = ']' && !isFirst then .ok (some (draft.token negated, rest))
    else if c = '-' && !isFirst && !draft.isRange then
      readClass negated false { draft with isRange := true } rest
    else
      match draft.push c with
      | .error fault => .error fault
      | .ok draft => readClass negated false draft rest

def isNegation (c : Char) : Bool :=
  c == '!' || c == '^'

def readClass? : List Char → Except GlobFault (Option (Token × List Char))
  | [] => .ok none
  | c :: rest =>
    if isNegation c then readClass true true .start rest else readClass false true .start (c :: rest)

/-- Takes the slash that ends a double star, if one comes next. -/
def dropSlash (chars : List Char) : List Char :=
  if chars.head? = some '/' then chars.tail else chars

/-- Two stars in a row, between the character before and those after them. They go across names
only if they stand alone between slashes or the ends of the pattern. -/
def readStars (draft : Draft) (before : Option Char) (after : List Char) : Draft × List Char :=
  let plain := (draft.push .anyName).push .anyName
  let inGroup := !draft.groups.isEmpty
  let ends := after = [] || (inGroup && (after.head? = some ',' || after.head? = some '\x7d'))
  if draft.glob.isEmpty then
    if after = [] || after.head? = some '/' then (draft.push .leadingNames, dropSlash after)
    else (plain, after)
  else if before ≠ some '/' && !(inGroup && (before = some ',' || before = some '\x7b')) then
    (plain, after)
  else if ends || after.head? = some '/' then
    let token :=
      match draft.glob.getLast? with
      | some .leadingNames => Token.leadingNames
      | some .trailingNames => Token.trailingNames
      | _ => if ends then Token.trailingNames else Token.innerNames
    (draft.pop.push token, if ends then after else dropSlash after)
  else (plain, after)

/-- Reads a pattern. The number bounds the characters that are left. Once a class turns out never
to be closed, its bracket and all later ones stand for themselves. -/
def readWithin : Nat → Bool → Draft → Option Char → List Char → Except GlobFault Draft
  | 0, _, draft, _, _ => .ok draft
  | _, _, draft, _, [] => .ok draft
  | bound + 1, hasClasses, draft, before, c :: rest =>
    match c, rest with
    | '?', rest => readWithin bound hasClasses (draft.push .anyByte) (some c) rest
    | '*', '*' :: after =>
      let (draft, left) := readStars draft before after
      readWithin bound hasClasses draft (some (if left.length < after.length then '/' else c)) left
    | '*', rest => readWithin bound hasClasses (draft.push .anyName) (some c) rest
    | '\x7b', rest => readWithin bound hasClasses draft.openGroup (some c) rest
    | '\x7d', rest => do readWithin bound hasClasses (← draft.closeGroup) (some c) rest
    | '\\', [] => .error .danglingEscape
    | '\\', escaped :: rest =>
      readWithin bound hasClasses (draft.pushChar escaped) (some escaped) rest
    | c, rest =>
      if c = ',' && !draft.groups.isEmpty then
        readWithin bound hasClasses draft.endAlternative (some c) rest
      else if c = '[' && hasClasses then do
        match ← readClass? rest with
        | some (token, left) => readWithin bound true (draft.push token) (some ']') left
        | none => readWithin bound false (draft.pushChar c) (some c) rest
      else readWithin bound hasClasses (draft.pushChar c) (some c) rest

/-- The pattern that a text stands for. A double star that is alone matches everything. -/
def Glob.parse (chars : List Char) : Except GlobFault Glob := do
  let draft ← readWithin chars.length true Draft.start none chars
  match draft.groups, draft.glob with
  | _ :: _, _ => throw .unclosedGroup
  | [], [.leadingNames] => return [.anything]
  | [], glob => return glob

end CallFlow.Ignore
