import CallFlow.Text

namespace CallFlow.Toml

abbrev Reader := StateT (List Char) Option

namespace Reader

def peek? : Reader (Option Char) :=
  return (← get).head?

def startsWith (text : String) : Reader Bool :=
  return text.toList.isPrefixOf (← get)

def advance (count : Nat) : Reader Unit :=
  modify (·.drop count)

def next : Reader Char := do
  match ← get with
  | [] => failure
  | c :: rest =>
    set rest
    return c

def takeWhile (p : Char → Bool) : Reader (List Char) := do
  let taken := (← get).takeWhile p
  advance taken.length
  return taken

def expect (text : String) : Reader Unit := do
  if ← startsWith text then advance text.length else failure

def accept (text : String) : Reader Bool := do
  if ← startsWith text then
    advance text.length
    return true
  else return false

/-- How a step of a loop ends. -/
inductive Turn (σ : Type) where
  | again (state : σ)
  | done (state : σ)

/-- Repeats a step until it is done, at most as often as the list has characters. -/
def loopAlong {σ : Type} (step : σ → Reader (Turn σ)) : List Char → σ → Reader σ
  | [], _ => failure
  | _ :: bound, state => do
    match ← step state with
    | .done state => return state
    | .again state => loopAlong step bound state

/-- Repeats a step until it is done. Every step but the last takes a character. -/
def loop {σ : Type} (state : σ) (step : σ → Reader (Turn σ)) : Reader σ := do
  loopAlong step (' ' :: (← get)) state

def isSpace (c : Char) : Bool :=
  c == ' ' || c == '\t'

def skipSpaces : Reader Unit :=
  discard <| takeWhile isSpace

/-- Control characters other than the tabulator stand nowhere. -/
def isPlain (c : Char) : Bool :=
  c == '\t' || (0x20 ≤ c.toNat && c.toNat != 0x7F)

def acceptNewline : Reader Bool := do
  if ← accept "\n" then return true else accept "\r\n"

def skipComment : Reader Unit := do
  if ← accept "#" then discard <| takeWhile isPlain

def endLine : Reader Unit := do
  skipSpaces
  skipComment
  unless (← peek?).isNone || (← acceptNewline) do failure

def skipBlank : Reader Unit :=
  loop () fun _ => do
    skipSpaces
    if (← peek?) = some '#' then
      skipComment
      return .again ()
    else return if ← acceptNewline then .again () else .done ()

end Reader

end CallFlow.Toml
