import CallFlow.Layout.Script.Pattern

namespace CallFlow.Layout.Script

/-- A part of what a word comes to. Characters of values that are not quoted can separate fields. A
quotation that holds nothing makes a field all the same. The edge between two arguments separates
fields; unless it is quoted, an empty argument makes none. -/
inductive Mark where
  | char (c : Char) (isQuoted splits : Bool)
  | empty
  | edge (isQuoted : Bool)
  deriving DecidableEq, Repr

namespace Mark

def quoted (text : Chars) : List Mark :=
  text.map fun c => char c true false

def plain (text : Chars) : List Mark :=
  text.map fun c => char c false false

def ofValue (inQuotes : Bool) (text : Chars) : List Mark :=
  text.map fun c => char c inQuotes (!inQuotes)

def char? : Mark → Option Char
  | char c _ _ => some c
  | _ => none

def text (marks : List Mark) : Chars :=
  marks.filterMap char?

/-- The text of marks in which the edges between arguments still show. -/
def edgedText (marks : List Mark) : Chars :=
  marks.filterMap fun
    | char c _ _ => some c
    | edge _ => some '\x00'
    | empty => none

def ofEdged (inQuotes : Bool) (text : Chars) : List Mark :=
  text.flatMap fun c =>
    if c ≠ '\x00' then [char c inQuotes (!inQuotes)]
    else if inQuotes then [.edge true, .empty]
    else [.edge false]

def pattern (marks : List Mark) : List Pattern.Atom :=
  Pattern.ofMarked (marks.filterMap fun
    | char c isQuoted _ => some (c, isQuoted)
    | _ => none)

/-- A word that takes the place of a value separates fields like one, as far as it is not quoted. -/
def asValue : Mark → Mark
  | char c false _ => char c false true
  | mark => mark

/-- What a mark is for the splitting into fields. -/
inductive Role where
  | inside
  | blank
  | separator
  | quotedEdge
  | edge
  deriving DecidableEq, Repr

def isBlank (c : Char) : Bool :=
  c = ' ' || c = '\t' || c = '\n'

def role (separators : Chars) : Mark → Role
  | char c _ splits =>
    if splits && separators.contains c then if isBlank c then .blank else .separator else .inside
  | empty => .inside
  | edge isQuoted => if isQuoted then .quotedEdge else .edge

/-- Splits marks into fields. Blanks around a separator belong to it, and where only blanks stand,
they separate. The flag says whether blanks that a separator may follow have just ended a field; the
field that is being read is kept backwards. -/
def split (separators : Chars) : (afterBlanks : Bool) → (field : List Mark) → List Mark →
    List (List Mark)
  | _, [], [] => []
  | _, field, [] => [field.reverse]
  | afterBlanks, field, mark :: rest =>
    match mark.role separators, field with
    | .inside, field => split separators false (mark :: field) rest
    | .blank, [] => split separators afterBlanks [] rest
    | .blank, field => field.reverse :: split separators true [] rest
    | .separator, [] =>
      if afterBlanks then split separators false [] rest else [] :: split separators false [] rest
    | .separator, field => field.reverse :: split separators false [] rest
    | .quotedEdge, field => field.reverse :: split separators false [] rest
    | .edge, [] => split separators false [] rest
    | .edge, field => field.reverse :: split separators false [] rest

end Mark

def fieldsOf (separators : Chars) (marks : List Mark) : List (List Mark) :=
  Mark.split separators false [] marks

end CallFlow.Layout.Script
