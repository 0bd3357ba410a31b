import CallFlow.FileTree
import CallFlow.Ignore.Rule

namespace CallFlow.Ignore

inductive LineFault where
  | badPattern (pattern : String) (fault : GlobFault)
  | unreadable
  deriving DecidableEq, Repr

def LineFault.message : LineFault → String
  | badPattern pattern fault => "error parsing glob '" ++ pattern ++ "': " ++ fault.message
  | unreadable => FileFault.message .invalidText

/-- The rules of a file in order, and the numbers of its faulty lines. -/
structure RuleFile where
  rules : List Rule
  faults : List (Nat × LineFault)

namespace RuleFile

def empty : RuleFile := { rules := [], faults := [] }

/-- Adds a line in front. Blank lines and comments state no rule. -/
def cons (number : Nat) (line : List Char) (file : RuleFile) : RuleFile :=
  let line := if line.head? = some '#' then [] else Rule.dropEndBlanks line
  if line.isEmpty then file
  else
    match Rule.ofPattern line with
    | .ok rule => { file with rules := rule :: file.rules }
    | .error fault =>
      { file with faults := (number, .badPattern (String.ofList line) fault) :: file.faults }

def linesOf (content : Content) : List (Option (List Char)) :=
  match content with
  | .text text => (Text.lineChars text.toList).map some
  | .binary bytes =>
    let pieces := (Text.pieces 0x0A bytes).map fun piece =>
      (String.fromUTF8? ⟨piece.toArray⟩).map String.toList
    pieces.dropLast.map (·.map Text.dropReturn) ++
      (pieces.getLast?.filter (· ≠ some [])).toList

/-- The rules on lines that are numbered from `number` on. Nothing is read behind a line that is no
text. Byte order marks before the first line are no part of it. -/
def ofLines : Nat → List (Option (List Char)) → RuleFile
  | _, [] => empty
  | number, none :: _ => { empty with faults := [(number, .unreadable)] }
  | number, some line :: rest =>
    let line := if number = 1 then line.dropWhile (· == Text.byteOrderMark) else line
    cons number line (ofLines (number + 1) rest)

def ofContent (content : Content) : RuleFile :=
  ofLines 1 (linesOf content)

/-- What is reported about a file at a path. That it holds no text is reported only together with
other faults. -/
def complaints (file : RuleFile) (path : String) : List String :=
  match file.faults with
  | [(_, .unreadable)] => []
  | faults => faults.map fun (number, fault) =>
    path ++ ": line " ++ toString number ++ ": " ++ fault.message

end RuleFile

end CallFlow.Ignore
