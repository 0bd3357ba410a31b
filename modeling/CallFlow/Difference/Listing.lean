import CallFlow.Difference.Slide

namespace CallFlow.Difference

/-- The lines of a text with their terminators: a line feed, a carriage return, or both. -/
def terminatedLines : List Char → List (List Char)
  | [] => []
  | '\r' :: '\n' :: cs => ['\r', '\n'] :: terminatedLines cs
  | c :: cs =>
    if c = '\n' || c = '\r' then [c] :: terminatedLines cs
    else
      match terminatedLines cs with
      | [] => [[c]]
      | line :: rest => (c :: line) :: rest

/-- A line with the sign of what becomes of it. -/
structure Change where
  sign : Char
  line : List Char
  deriving DecidableEq, Repr

def markAll (sign : Char) (lines : List (List Char)) : List Change :=
  lines.map fun line => { sign, line }

/-- The changes of a script, with what was removed and added since the last kept block. -/
def changesFrom (removed added : List (List Char)) : List (Edit (List Char)) → List Change
  | [] => markAll '-' removed ++ markAll '+' added
  | .remove block :: rest => changesFrom (removed ++ block) added rest
  | .add block :: rest => changesFrom removed (added ++ block) rest
  | .keep block :: rest =>
    markAll '-' removed ++ markAll '+' added ++ markAll ' ' block ++ changesFrom [] [] rest

def changes (old new : String) : List Change :=
  changesFrom [] [] (tidy (script (terminatedLines old.toList) (terminatedLines new.toList)))

/-- A line without a terminator gets one, and an empty line that tells it from the others. -/
def Change.text (change : Change) : String :=
  let ending :=
    match change.line.getLast? with
    | some '\n' | some '\r' => ""
    | _ => "\n\n"
  change.sign.toString ++ String.ofList change.line ++ ending

/-- All lines of two texts, each with its sign. -/
def listing (old new : String) : String :=
  String.join ((changes old new).map Change.text)

end CallFlow.Difference
