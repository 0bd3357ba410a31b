namespace CallFlow.Xml

/-- The characters are kept in reverse. A carriage return at the end is still open: the character
that follows it decides. The character after one that was put in verbatim is verbatim, too. -/
structure TextRun where
  reversed : List Char
  keepsNext : Bool
  deriving DecidableEq, Repr

namespace TextRun

def empty : TextRun := { reversed := [], keepsNext := false }

def chars (run : TextRun) : List Char :=
  run.reversed.reverse

def pushVerbatim (run : TextRun) (c : Char) : TextRun :=
  { reversed := c :: run.reversed, keepsNext := true }

/-- Writes a character behind others, in reverse. A carriage return at the end of the text has
nothing to wait for. -/
def write (reversed : List Char) (c : Char) (isLast : Bool) : List Char :=
  (if isLast && c = '\r' then '\n' else c) :: reversed

def push (run : TextRun) (c : Char) (isLast : Bool) : TextRun :=
  let reversed :=
    if run.keepsNext then c :: run.reversed
    else
      match run.reversed with
      | '\r' :: before => if c = '\n' then '\n' :: before else write ('\n' :: before) c isLast
      | before => write before c isLast
  { reversed, keepsNext := false }

def pushAll (run : TextRun) : List Char → Bool → TextRun
  | [], _ => run
  | [c], isEnd => run.push c isEnd
  | c :: rest, isEnd => pushAll (run.push c false) rest isEnd

end TextRun

def normalizeLineEnds (chars : List Char) : List Char :=
  (TextRun.empty.pushAll chars true).chars

end CallFlow.Xml
