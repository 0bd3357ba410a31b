import CallFlow.Layout.Tool.Line

namespace CallFlow.Layout.Tool.Tally

structure Counts where
  lines : Nat
  words : Nat
  chars : Nat
  longest : Nat
  deriving DecidableEq, Repr

def isBlank (c : Char) : Bool :=
  c = ' ' || (0x9 ≤ c.toNat && c.toNat ≤ 0xD)

namespace Counts

def none : Counts := { lines := 0, words := 0, chars := 0, longest := 0 }

def add (a b : Counts) : Counts :=
  { lines := a.lines + b.lines, words := a.words + b.words, chars := a.chars + b.chars
    longest := max a.longest b.longest }

/-- The number of stretches without blanks: how many characters begin one. -/
def countWords (text : Chars) : Nat :=
  (text.foldl (fun (count, inWord) c =>
    if isBlank c then (count, false) else (if inWord then count else count + 1, true))
    (0, false)).1

def ofText (text : Chars) : Counts :=
  { lines := text.count '\n', words := countWords text, chars := text.length
    longest := ((bareLines text).map List.length).foldl max 0 }

def shown (tally : Counts) (told : Told) : List Nat :=
  let asks (letter : Char) : Bool := told.has letter
  if told.flags = [] then [tally.lines, tally.words, tally.chars]
  else
    (if asks 'l' then [tally.lines] else []) ++ (if asks 'w' then [tally.words] else []) ++
      (if asks 'm' then [tally.chars] else []) ++ (if asks 'c' then [tally.chars] else []) ++
      if asks 'L' then [tally.longest] else []

end Counts

def flags : List Flag :=
  [.switch 'c' (some "bytes"), .switch 'm' (some "chars"), .switch 'l' (some "lines"),
    .switch 'w' (some "words"), .switch 'L' (some "max-line-length")]

def row (width : Nat) (counts : List Nat) (name : Chars) : Chars :=
  let cells := counts.map fun count =>
    let digits := (toString count).toList
    List.replicate (width - digits.length) ' ' ++ digits
  (cells.intersperse [' ']).flatten ++ (if name = [] then [] else ' ' :: name) ++ ['\n']

/-- Whether a text that cannot be read is found nevertheless. It counts as empty. -/
def isOpened (text : Call.Text) : Bool :=
  match text.content with
  | .ok _ => true
  | .error reason => reason = FileFault.reason .isDirectory || Call.isFed text.name

def run : Program := fun call =>
  match tell flags call.args with
  | .error fault => call.refuse fault
  | .ok told =>
    let texts := call.texts told.operands
    let tallies := texts.map fun text => (text.content.toOption.map Counts.ofText).getD .none
    let total := tallies.foldl Counts.add .none
    let columns := (Counts.none.shown told).length
    let isSingle := texts.length = 1 && columns = 1
    let width :=
      if isSingle then 1
      else if told.operands = [] || told.operands.any Call.isFed then 7
      else (toString total.chars).length
    let rows := (texts.zip tallies).flatMap fun (text, tally) =>
      if isOpened text then
        row width (tally.shown told) (if told.operands = [] then [] else text.name)
      else []
    let errors := texts.flatMap fun text =>
      match text.content with
      | .ok _ => []
      | .error reason =>
        let name := if told.operands = [] then Call.spelled text.name else text.name
        call.complaint (Call.shown name ++ ": ".toList ++ reason.toList)
    let errors := errors ++ call.closingComplaint told.operands "-"
    { output := rows ++ if texts.length > 1 then row width (total.shown told) "total".toList else []
      errors, ending := .exited (if errors = [] then 0 else 1)
      left := call.leftBehind told.operands }

end CallFlow.Layout.Tool.Tally
