import CallFlow.Ignore.Glob

namespace CallFlow.Ignore

/-- What the rules say about a file or a directory. -/
inductive Verdict where
  | silent
  | ignored
  | kept
  deriving DecidableEq, Repr

def Verdict.orElse : Verdict → Verdict → Verdict
  | silent, other => other
  | verdict, _ => verdict

structure Rule where
  glob : Glob
  keeps : Bool
  directoriesOnly : Bool

namespace Rule

/-- A pattern that begins with a double star may match at any depth. -/
def hasLeadingStars (pattern : List Char) : Bool :=
  ['*', '*', '/'].isPrefixOf pattern || pattern = ['*', '*']

/-- The pattern as it is matched. Without a slash it applies at any depth, and one that ends with
a double star does not mean the directory itself. -/
def fullPattern (anchored : Bool) (pattern : List Char) : List Char :=
  let pattern :=
    if !anchored && !pattern.contains '/' && !hasLeadingStars pattern then
      ['*', '*', '/'] ++ pattern
    else pattern
  if ['/', '*', '*'].isSuffixOf pattern then pattern ++ ['/', '*'] else pattern

def dropEndSlash (pattern : List Char) : List Char :=
  let pattern := pattern.dropLast
  if pattern.getLast? = some '\\' then pattern.dropLast else pattern

/-- A line without the blanks at its end, unless the last of them is escaped. -/
def dropEndBlanks (line : List Char) : List Char :=
  if ['\\', ' '].isSuffixOf line then line else Text.trimRightChars line

/-- The rule that a line states, where the line is neither blank nor a comment. -/
def ofPattern (line : List Char) : Except GlobFault Rule := do
  let escaped := ['\\', '!'].isPrefixOf line || ['\\', '#'].isPrefixOf line
  let keeps := !escaped && line.head? = some '!'
  let line := if escaped || keeps then line.tail else line
  let anchored := line.head? = some '/'
  let line := if !escaped && anchored then line.tail else line
  let directoriesOnly := line.getLast? = some '/'
  let pattern := if directoriesOnly then dropEndSlash line else line
  return { glob := ← Glob.parse (fullPattern anchored pattern), keeps, directoriesOnly }

def applies (rule : Rule) (path : List Byte) (isDirectory : Bool) : Bool :=
  (!rule.directoriesOnly || isDirectory) && rule.glob.covers path

end Rule

/-- The last rule that speaks about a path decides. -/
def verdict (rules : List Rule) (path : String) (isDirectory : Bool) : Verdict :=
  match rules.reverse.find? (·.applies path.toUTF8.toList isDirectory) with
  | none => .silent
  | some rule => if rule.keeps then .kept else .ignored

end CallFlow.Ignore
