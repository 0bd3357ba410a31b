import CallFlow.Layout.Tool.Flag

namespace CallFlow.Layout.Tool.Cat

structure Style where
  numbers : Bool
  numbersFilled : Bool
  squeezes : Bool
  showsEnds : Bool
  showsTabs : Bool
  showsHidden : Bool
  deriving DecidableEq, Repr

def flags : List Flag :=
  [.switch 'b' "number-nonblank", .switch 'n' "number", .switch 's' "squeeze-blank",
    .switch 'v' "show-nonprinting", .switch 'E' "show-ends", .switch 'T' "show-tabs",
    .switch 'A' "show-all", .switch 'e' none, .switch 't' none, .switch 'u' none]

namespace Style

def ofTold (told : Told) : Style :=
  { numbers := told.has 'n' || told.has 'b'
    numbersFilled := told.has 'b'
    squeezes := told.has 's'
    showsEnds := told.has 'E' || told.has 'A' || told.has 'e'
    showsTabs := told.has 'T' || told.has 'A' || told.has 't'
    showsHidden := told.has 'v' || told.has 'A' || told.has 'e' || told.has 't' }

/-- Copies everything as it is. -/
def plain : Style :=
  { numbers := false, numbersFilled := false, squeezes := false, showsEnds := false,
    showsTabs := false, showsHidden := false }

/-- The visible form of a control character is the letter that lies 64 characters above it. -/
def low (code : Nat) : Chars :=
  if code < 32 then ['^', Char.ofNat (code + 64)]
  else if code = 127 then ['^', '?']
  else [Char.ofNat code]

def visible (style : Style) (c : Char) : Chars :=
  if c = '\t' then if style.showsTabs then ['^', 'I'] else [c]
  else if !style.showsHidden then [c]
  else if c.toNat < 128 then low c.toNat
  else 'M' :: '-' :: low (c.toNat - 128)

/-- The form of a line, without its number. Where ends of lines show, so does a carriage return
before one. -/
def line (style : Style) (isEnded : Bool) (text : Chars) : Chars :=
  let marksReturn := style.showsEnds && !style.showsHidden && isEnded && text.getLast? = some '\r'
  let body := if marksReturn then text.dropLast else text
  body.flatMap style.visible ++ (if marksReturn then ['^', 'M'] else []) ++
    (if isEnded && style.showsEnds then ['$'] else []) ++ if isEnded then ['\n'] else []

def number (count : Nat) : Chars :=
  let digits := (toString count).toList
  List.replicate (6 - digits.length) ' ' ++ digits ++ ['\t']

def lines (style : Style) : (count : Nat) → (afterEmpty : Bool) → List Chars → Chars
  | _, _, [] => []
  | count, afterEmpty, text :: rest =>
    let isEnded := !rest.isEmpty
    if text = [] && !isEnded then []
    else if text = [] && afterEmpty && style.squeezes then style.lines count true rest
    else
      let counts := style.numbers && !(style.numbersFilled && text = [])
      (if counts then number (count + 1) else []) ++ style.line isEnded text ++
        style.lines (if counts then count + 1 else count) text.isEmpty rest

def apply (style : Style) (text : Chars) : Chars :=
  if style = .plain then text else style.lines 0 false (Text.pieces '\n' text)

end Style

/-- Whether a name is that of the file to which the copy would go. -/
def isAim (call : Call) (name : Chars) : Bool :=
  !Call.isFed name && call.aim?.any fun place =>
    (call.tree.locate (System.pathOf name)).toOption = some place

def run : Program := fun call =>
  match tell flags call.args with
  | .error fault => call.refuse fault
  | .ok told =>
    if call.outputFault = some Call.closed then
      call.fail ("standard output: ".toList ++ Call.closed.toList)
    else
      let texts := (call.texts told.operands).map fun text =>
        if text.content.toOption.any (· ≠ []) && isAim call text.name then
          { text with content := .error "input file is output file" }
        else text
      let errors := texts.flatMap fun text =>
        match text.content with
        | .ok _ => []
        | .error reason => call.complaint (Call.shown text.name ++ ": ".toList ++ reason.toList)
      let errors := errors ++ call.closingComplaint told.operands "closing standard input"
      let content := texts.flatMap fun text => text.content.toOption.getD []
      { output := (Style.ofTold told).apply content, errors
        ending := .exited (if errors = [] then 0 else 1)
        left := call.leftBehind told.operands }

end CallFlow.Layout.Tool.Cat
