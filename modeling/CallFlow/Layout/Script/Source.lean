import CallFlow.Layout.Script.Syntax

namespace CallFlow.Layout.Script

/-- What makes a script unreadable, and the line where that shows. -/
structure Complaint where
  line : Nat
  message : String
  deriving DecidableEq, Repr

/-- A text that a redirection feeds and that begins only on the next line. It ends at a line that
consists of the mark. -/
structure Awaited where
  number : Nat
  mark : Chars
  isVerbatim : Bool
  stripsTabs : Bool

/-- The text of an alias that is being read in place of its name: how many characters follow it, and
whether the next word behind it can be an alias, too. -/
structure Expansion where
  name : Chars
  behind : Nat
  isOpen : Bool

/-- A script that is being read: what is left of it, the number of the present line, and the token
that is to be read again. Texts that redirections feed are kept under numbers. -/
structure Source where
  rest : Chars
  line : Nat
  pushed : Option Token
  awaited : List Awaited
  documents : List (Nat × Word)
  aliases : List (Chars × Chars)
  expansions : List Expansion
  /-- What was left where the last token began. -/
  start : Chars
  /-- Whether the last token is the next word behind the text of an alias that asks for that. -/
  mayExpand : Bool

abbrev Reader := StateT Source (Except Complaint)

namespace Source

def ofChars (text : Chars) : Source :=
  { rest := text, line := 1, pushed := none, awaited := [], documents := [], aliases := []
    expansions := [], start := [], mayExpand := false }

def around (source : Source) (left : Nat) : List Expansion :=
  source.expansions.filter (·.behind < left)

/-- The text that stands for a word, unless it is read in that text already. -/
def alias? (source : Source) (name : Chars) : Option Chars :=
  if source.aliases.isEmpty || (source.around source.start.length).any (·.name = name) then none
  else source.aliases.lookup name

def expand (source : Source) (name text : Chars) : Source :=
  if text = [] then source
  else
    let behind := source.rest.length
    let isOpen := text.getLast?.any fun c => c = ' ' || c = '\t'
    { source with rest := text ++ source.rest
                  expansions := { name, behind, isOpen } :: source.around source.start.length }

def dropJoints : Chars → Nat → Chars × Nat
  | '\\' :: '\n' :: rest, line => dropJoints rest (line + 1)
  | rest, line => (rest, line)

/-- The characters from the next one on that is neither blank nor in a comment, and their line. The
flag says whether a comment has begun. -/
def dropBlanks : Bool → Chars → Nat → Chars × Nat
  | true, '\n' :: rest, line => ('\n' :: rest, line)
  | true, _ :: rest, line => dropBlanks true rest line
  | false, '\\' :: '\n' :: rest, line => dropBlanks false rest (line + 1)
  | false, ' ' :: rest, line => dropBlanks false rest line
  | false, '\t' :: rest, line => dropBlanks false rest line
  | false, '#' :: rest, line => dropBlanks true rest line
  | _, rest, line => (rest, line)

end Source

namespace Reader

def complain {α : Type} (message : String) : Reader α := do
  throw { line := (← get).line, message := "Syntax error: " ++ message }

def unexpected {α : Type} (found : Token) : Reader α :=
  complain (found.name ++ " unexpected")

def unexpectedFor {α : Type} (expected found : Token) : Reader α :=
  complain (found.name ++ " unexpected (expecting " ++ expected.name ++ ")")

def takeRaw : Reader (Option Char) := do
  let source ← get
  match source.rest with
  | [] => return none
  | c :: rest =>
    set { source with rest, line := if c = '\n' then source.line + 1 else source.line }
    return some c

/-- The next character behind the joints of lines. -/
def peek : Reader (Option Char) := do
  let source ← get
  let (rest, line) := Source.dropJoints source.rest source.line
  set { source with rest, line }
  return rest.head?

/-- Takes a character that says what is made of a value. A line that ends there is not counted. -/
def takeMark : Reader (Option Char) := do
  discard peek
  let line := (← get).line
  let mark ← takeRaw
  modify fun source => { source with line }
  return mark

def accept (c : Char) : Reader Bool := do
  if (← peek) = some c then
    discard takeRaw
    return true
  else return false

def takeWhileWithin (p : Char → Bool) : Nat → Reader Chars
  | 0 => return []
  | bound + 1 => do
    match ← peek with
    | some c =>
      if p c then
        discard takeRaw
        return c :: (← takeWhileWithin p bound)
      else return []
    | none => return []

def takeWhile (p : Char → Bool) : Reader Chars := do
  takeWhileWithin p (← get).rest.length

def skipBlanks : Reader Unit :=
  modify fun source =>
    let (rest, line) := Source.dropBlanks false source.rest source.line
    let mayExpand := !source.expansions.isEmpty &&
      (source.around source.rest.length).any fun expansion =>
        expansion.isOpen && rest.length ≤ expansion.behind
    { source with rest, line, start := rest, mayExpand }

def push (token : Token) : Reader Unit :=
  modify fun source => { source with pushed := some token }

/-- Reads another text, which begins on a line of its own, and then goes on behind the present
place. -/
def within {α : Type} (text : Chars) (line : Nat) (read : Reader α) : Reader α := do
  let before ← get
  let expansions := (before.around before.start.length).map fun expansion =>
    { expansion with behind := 0, isOpen := false }
  set { before with rest := text, line, pushed := none, expansions }
  let result ← read
  modify fun source =>
    { before with awaited := source.awaited, documents := source.documents }
  return result

end Reader

end CallFlow.Layout.Script
