import CallFlow.Layout.Tool.Line

namespace CallFlow.Layout.Tool.Excerpt

inductive Side where
  | beginning
  | ending
  deriving DecidableEq, Repr

inductive Measure where
  | lines
  | chars
  deriving DecidableEq, Repr

/-- How much is taken: so many units, or (if `others`) all but those on the other side. For an
ending that is told by where it begins, the first unit has the number one. -/
structure Extent where
  unit : Measure
  count : Nat
  others : Bool
  deriving DecidableEq, Repr

def flags : List Flag :=
  [.setting 'c' (some "bytes"), .setting 'n' (some "lines"), .switch 'q' (some "quiet"),
    .switch 'q' (some "silent"), .switch 'v' (some "verbose")]

def multipliers : List (String × Nat) :=
  [("", 1), ("b", 512), ("kB", 1000), ("k", 1024), ("K", 1024), ("MB", 1000000), ("M", 1048576)]

def count? (text : Chars) : Option Nat :=
  let digits := text.takeWhile Char.isDigit
  if digits = [] then none
  else
    (multipliers.lookup (String.ofList (text.drop digits.length))).map fun factor =>
      factor * digits.foldl (fun value c => value * 10 + (c.toNat - '0'.toNat)) 0

namespace Side

def extent? (side : Side) (unit : Measure) (value : Chars) : Option Extent :=
  match side, value with
  | beginning, '-' :: text => (count? text).map fun count => { unit, count, others := true }
  | ending, '+' :: text => (count? text).map fun count => { unit, count, others := true }
  | ending, '-' :: text => (count? text).map fun count => { unit, count, others := false }
  | _, text => (count? text).map fun count => { unit, count, others := false }

def take {α : Type} (side : Side) (extent : Extent) (parts : List α) : List α :=
  match side, extent.others with
  | beginning, false => parts.take extent.count
  | beginning, true => parts.take (parts.length - extent.count)
  | ending, false => parts.drop (parts.length - extent.count)
  | ending, true => parts.drop (extent.count - 1)

def excerpt (side : Side) (extent : Extent) (text : Chars) : Chars :=
  match extent.unit with
  | .lines => (side.take extent (lines text)).flatten
  | .chars => side.take extent text

end Side

/-- As much as is read at a time. -/
def blockSize : Nat := 8192

/-- What is left to read behind a beginning. Lines are looked for in whole blocks. -/
def unread (extent : Extent) (input : Chars) : Chars :=
  let excerpt := Side.beginning.excerpt extent input
  match extent.unit with
  | .chars => input.drop excerpt.length
  | .lines => input.drop ((excerpt.length + blockSize - 1) / blockSize * blockSize)

/-- A number that stands alone behind a dash counts lines. -/
def withShortForm (side : Side) (args : List Chars) : List Chars :=
  match args with
  | ('-' :: digits) :: rest =>
    if digits ≠ [] && digits.all Char.isDigit then "-n".toList :: digits :: rest else args
  | ('+' :: digits) :: rest =>
    if side = .ending && digits ≠ [] && digits.all Char.isDigit then
      "-n".toList :: ('+' :: digits) :: rest
    else args
  | args => args

def heading (name : Chars) : Chars :=
  "==> ".toList ++ (if Call.isFed name then "standard input".toList else name) ++ " <==\n".toList

def excerpts (side : Side) (extent : Extent) (showsNames : Bool) : (first : Bool) →
    List Call.Text → Chars
  | _, [] => []
  | first, text :: rest =>
    match text.content with
    | .error _ => excerpts side extent showsNames first rest
    | .ok content =>
      (if showsNames then (if first then [] else ['\n']) ++ heading text.name else []) ++
        side.excerpt extent content ++ excerpts side extent showsNames false rest

/-- What is counted: that for which a number was given last. -/
def measureOf (told : Told) : Measure :=
  match told.flags.reverse.find? fun flag => flag.1 = 'c' || flag.1 = 'n' with
  | some ('c', _) => .chars
  | _ => .lines

def run (side : Side) : Program := fun call =>
  match tell flags (withShortForm side call.args) with
  | .error fault => call.refuse fault
  | .ok told =>
    let unit := measureOf told
    let value := (told.value? (if unit = .chars then 'c' else 'n')).getD ['1', '0']
    match side.extent? unit value with
    | none =>
      let what := if unit = .chars then "bytes" else "lines"
      call.fail ("invalid number of ".toList ++ what.toList ++ ": '".toList ++ value ++ ['\''])
    | some extent =>
      let texts := call.texts told.operands
      let showsNames := !told.has 'q' && (told.has 'v' || told.operands.length > 1)
      let errors := texts.flatMap fun text =>
        match text.content with
        | .ok _ => []
        | .error reason =>
          let wording : String × String :=
            if reason = FileFault.reason .isDirectory then ("error reading '", "': ")
            else if reason ≠ Call.closed then ("cannot open '", "' for reading: ")
            else if side = .beginning then ("error reading '", "': ")
            else ("cannot fstat '", "': ")
          call.complaint
            (wording.1.toList ++ Call.spelled text.name ++ wording.2.toList ++ reason.toList)
      let errors := errors ++ call.closingComplaint told.operands "-"
      let reads := told.operands = [] || told.operands.any Call.isFed
      { output := excerpts side extent showsNames true texts, errors
        ending := .exited (if errors = [] then 0 else 1)
        left :=
          if !reads then call.input
          else if side = .beginning then unread extent call.input
          else [] }

end CallFlow.Layout.Tool.Excerpt
