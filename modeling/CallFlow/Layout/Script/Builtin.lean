import CallFlow.Layout.Script.Format
import CallFlow.Layout.Script.Listing
import CallFlow.Layout.Script.Mask
import CallFlow.Text

namespace CallFlow.Layout.Script.Builtin

def special : List String :=
  [".", ":", "break", "continue", "eval", "exec", "exit", "export", "local", "readonly", "return",
    "set", "shift", "times", "trap", "unset"]

def ordinary : List String :=
  ["[", "alias", "bg", "cd", "chdir", "command", "echo", "false", "fg", "getopts", "hash", "jobs",
    "kill", "printf", "pwd", "read", "test", "true", "type", "ulimit", "umask", "unalias", "wait"]

def isSpecial (name : Chars) : Bool :=
  special.contains (String.ofList name)

def isBuiltin (name : Chars) : Bool :=
  isSpecial name || ordinary.contains (String.ofList name)

/-- Takes single letters from the front of the arguments. A double dash ends them. -/
def letters (known : String) : List Chars → Run (List Char × List Chars)
  | [] => return ([], [])
  | arg :: rest =>
    match arg with
    | ['-', '-'] => return ([], rest)
    | '-' :: c :: more => do
      match (c :: more).find? fun letter => !known.toList.contains letter with
      | some letter => Run.fail ("Illegal option -".toList ++ [letter])
      | none =>
        let (found, left) ← letters known rest
        return (c :: more ++ found, left)
    | _ => return ([], arg :: rest)

def requireName (name : Chars) : Run Unit := do
  if !isName name then Run.fail (name ++ ": bad variable name".toList)

def echo (args : List Chars) : Run Nat :=
  match args with
  | ['-', 'n'] :: words => Run.print (Script.echo true words)
  | words => Run.print (Script.echo false words)

def printf (args : List Chars) : Run Nat := do
  let (_, args) ← letters "" args
  match args with
  | [] => Run.fail "usage: printf format [arg ...]".toList
  | text :: args =>
    let progress := format text args
    progress.complaints.forM Run.report
    let status ← Run.print progress.output
    match progress.failure with
    | some message => Run.fail message
    | none => return if progress.complaints = [] then status else 1

def check (inBrackets : Bool) (args : List Chars) : Run Nat := do
  let machine ← get
  match Condition.holds ⟨machine.fileKind?, machine.isSame⟩ inBrackets args with
  | .ok holds => return if holds then 0 else 1
  | .error fault => Run.fail fault.message

/-- Reads characters up to the end of a line, and says whether there is one. Unless it is told not
to, a backslash takes the meaning of the next character and joins lines. -/
def lineMarks (raw : Bool) : Chars → List Mark × Bool × Chars
  | [] => ([], false, [])
  | '\n' :: rest => ([], true, rest)
  | '\\' :: c :: rest =>
    if raw then
      let (marks, isEnded, left) := lineMarks raw (c :: rest)
      (.char '\\' false true :: marks, isEnded, left)
    else
      let (marks, isEnded, left) := lineMarks raw rest
      (if c = '\n' then marks else .char c true false :: marks, isEnded, left)
  | c :: rest =>
    let (marks, isEnded, left) := lineMarks raw rest
    (if c = '\x00' then marks else .char c false true :: marks, isEnded, left)

def takeField (separators : Chars) (marks : List Mark) : List Mark × List Mark :=
  let role := Mark.role separators
  let isBlank (mark : Mark) : Bool := role mark = .blank
  let isSeparator (mark : Mark) : Bool := role mark = .separator
  let field := marks.takeWhile (role · = .inside)
  let rest := (marks.drop field.length).dropWhile isBlank
  match rest with
  | mark :: more => (field, if isSeparator mark then more.dropWhile isBlank else rest)
  | [] => (field, [])

/-- The last field of a line: all that is left, without blanks at its end. If it is a single field,
the separator behind it is no part of it either. -/
def lastField (separators : Chars) (marks : List Mark) : List Mark :=
  match takeField separators marks with
  | (field, []) => field
  | _ => (marks.reverse.dropWhile fun mark => mark.role separators = .blank).reverse

def distribute (separators : Chars) : List Chars → List Mark → List (Chars × Chars)
  | [], _ => []
  | [name], marks => [(name, Mark.text (lastField separators marks))]
  | name :: names, marks =>
    let (field, rest) := takeField separators marks
    (name, Mark.text field) :: distribute separators names rest

def read (args : List Chars) : Run Nat := do
  let (flags, args) ← letters "rp" args
  let names := if flags.contains 'p' then args.tail else args
  if names = [] then Run.fail "arg count".toList
  names.forM requireName
  let machine ← get
  let (marks, isEnded, rest) := lineMarks (flags.contains 'r') (machine.readable 0)
  set (machine.leave 0 rest)
  let separators := machine.separators
  let marks := marks.dropWhile fun mark => mark.role separators = .blank
  (distribute separators names marks).forM fun (name, value) => Run.assign name value
  return if isEnded then 0 else 1

/-- The letter of the next option among some arguments with the letters behind it, the number of the
argument after it, and whether there was none. -/
def nextOption (args : List Chars) (place : Nat × Option Nat) : Option (Char × Chars) × Nat :=
  let (number, done?) := place
  let started := (done?.filter fun _ => number > 1).bind fun done =>
    (args[number - 2]?.map (·.drop done)).filter (· ≠ [])
  match started, args[number - 1]? with
  | some (c :: rest), _ => (some (c, rest), number)
  | _, some ['-', '-'] => (none, number + 1)
  | _, some ('-' :: c :: rest) => (some (c, rest), number + 1)
  | _, _ => (none, number)

/-- Whether a letter is among the options, and whether a value belongs to it. -/
def optionRule? (letter : Char) : Chars → Option Bool
  | [] => none
  | c :: ':' :: rest => if c = letter then some true else optionRule? letter rest
  | c :: rest => if c = letter then some false else optionRule? letter rest

/-- Takes the next option from the arguments. -/
def getopts (args : List Chars) : Run Nat := do
  match args with
  | known :: name :: given => do
    let machine ← get
    let args := if given.isEmpty then machine.args else given
    let (found, number) := nextOption args machine.optionPlace
    let isQuiet := known.head? = some ':'
    let value := "OPTARG".toList
    let finish (letter : Char) (number : Nat) (done? : Option Nat) (status : Nat) : Run Nat := do
      Run.assign Run.optionVariable (toString number).toList
      requireName name
      Run.assign name [letter]
      modify fun machine => { machine with optionPlace := (number, done?) }
      return status
    match found with
    | none => finish '?' number none 1
    | some (letter, rest) =>
      let doneBefore := (args[number - 2]?.getD []).length - rest.length
      match optionRule? letter known, rest, args[number - 1]? with
      | none, _, _ =>
        if isQuiet then Run.assign value [letter]
        else
          discard <| Run.write 2 ("Illegal option -".toList ++ [letter, '
'])
          modify fun machine => { machine with values := remove value machine.values }
        finish '?' number (some doneBefore) 0
      | some false, _, _ =>
        Run.assign value []
        finish letter number (some doneBefore) 0
      | some true, [], none =>
        if isQuiet then
          Run.assign value [letter]
          finish ':' number none 0
        else
          discard <| Run.write 2 ("No arg for -".toList ++ [letter] ++ " option
".toList)
          modify fun machine => { machine with values := remove value machine.values }
          finish '?' number none 0
      | some true, [], some next =>
        Run.assign value next
        finish letter (number + 1) none 0
      | some true, rest, _ =>
        Run.assign value rest
        finish letter number none 0
  | _ => Run.fail "Usage: getopts optstring var [arg...]".toList

def shift (args : List Chars) : Run Nat := do
  let count ← match args with
    | [] => pure 1
    | count :: _ => Run.number count
  let machine ← get
  if machine.args.length < count then Run.fail "can't shift that many".toList
  set { machine with args := machine.args.drop count }
  return 0

/-- Turns an option on or off by its letter. Of the two ways to edit lines only one is on. -/
def setLetter (turnsOn : Bool) (letter : Char) : Run Unit := do
  if !Machine.optionLetters.contains letter then
    Run.fail ("Illegal option -".toList ++ [letter])
  if letter = 'm' && turnsOn then Run.report "can't access tty; job control turned off".toList
  else
    modify fun machine =>
      let other? := if turnsOn then [('V', 'E'), ('E', 'V')].lookup letter else none
      let machine := match other? with
        | some other => machine.setOption false other
        | none => machine
      machine.setOption turnsOn letter

def setNamed (turnsOn : Bool) (name : Chars) : Run Unit := do
  match Machine.optionNames.lookup (String.ofList name) with
  | some (some letter) => modify (·.setOption turnsOn letter)
  | some none => pure ()
  | none => Run.fail ("Illegal option -o ".toList ++ name)

/-- Turns the options of one argument on or off, and returns the arguments behind it that do not
belong to it. A name that is missing asks for a list of all options. -/
def setLetters (turnsOn : Bool) : Chars → List Chars → Run (List Chars)
  | [], rest => return rest
  | 'o' :: letters, [] => do
    let machine ← get
    discard <| Run.print
      (if turnsOn then Listing.optionTable machine else Listing.optionCommands machine)
    setLetters turnsOn letters []
  | 'o' :: letters, name :: rest => do
    setNamed turnsOn name
    setLetters turnsOn letters rest
  | letter :: letters, rest => do
    setLetter turnsOn letter
    setLetters turnsOn letters rest

/-- Turns options on and off, and returns the arguments that follow them, if any can. The number
bounds the arguments. -/
def options : Nat → List Chars → Run (Option (List Chars))
  | 0, _ => return none
  | _, [] => return none
  | bound + 1, arg :: rest =>
    match arg with
    | ['-'] => do
      modify fun machine => (machine.setOption false 'x').setOption false 'v'
      return if rest = [] then none else some rest
    | ['-', '-'] => return some rest
    | '-' :: letters => do options bound (← setLetters true letters rest)
    | '+' :: letters => do options bound (← setLetters false letters rest)
    | _ => return some (arg :: rest)

def setAll (args : List Chars) : Run Nat := do
  match ← options (args.length + 1) args with
  | some args => modify fun machine => { machine with args, optionPlace := (1, none) }
  | none => pure ()
  return 0

def unset (args : List Chars) : Run Nat := do
  let (flags, names) ← letters "fv" args
  names.forM fun name => do
    let machine ← get
    if flags.contains 'f' then
      set { machine with functions := remove name machine.functions }
    else
      requireName name
      if (machine.lookup name).isReadOnly then Run.fail (name ++ ": is read only".toList)
      set { machine with values := remove name machine.values }
  return 0

def nameAndValue (arg : Chars) : Chars × Option Chars :=
  let name := arg.takeWhile (· ≠ '=')
  (name, if name.length < arg.length then some (arg.drop (name.length + 1)) else none)

def mark (command : String) (isMarked : Variable → Bool) (change : Variable → Variable)
    (args : List Chars) : Run Nat := do
  let (flags, args) ← letters "p" args
  if flags ≠ [] || args = [] then
    Run.print (Listing.values command.toList ((← get).values.filter (isMarked ·.2)))
  else
    args.forM fun arg => do
      let (name, value) := nameAndValue arg
      requireName name
      match value with
      | some value => Run.assign name value
      | none => pure ()
      modify fun machine =>
        { machine with values := put name (change (machine.lookup name)) machine.values }
    return 0

def markExported : List Chars → Run Nat :=
  mark "export" (·.isExported) fun old => { old with isExported := true }

def markReadOnly : List Chars → Run Nat :=
  mark "readonly" (·.isReadOnly) fun old => { old with isReadOnly := true }

/-- Has variables put back when the present function ends. -/
def localize (args : List Chars) : Run Nat := do
  args.forM fun arg => do
    let (name, value) := nameAndValue arg
    requireName name
    let machine ← get
    match machine.outside with
    | [] => Run.fail "not in a function".toList
    | kept :: others =>
      if (kept.lookup name).isNone then
        set
          { machine with outside := ((name, machine.lookup name) :: kept) :: others }
    match value with
    | some value => Run.assign name value
    | none => pure ()
  if (← get).outside = [] then Run.fail "not in a function".toList
  return 0

/-- The path to which a step leads from a directory. -/
def resolvePath (start path : Chars) : Chars :=
  let whole := if path.head? = some '/' then path else start ++ '/' :: path
  let steps := (Text.pieces '/' whole).foldl (fun before step =>
    if step = [] || step = ['.'] then before
    else if step = ['.', '.'] then before.dropLast
    else before ++ [step]) []
  if steps = [] then ['/'] else steps.flatMap ('/' :: ·)

def cd (args : List Chars) : Run Nat := do
  let (_, args) ← letters "LP" args
  let machine ← get
  let here := machine.dir
  let target := match args with
    | [] => (machine.value? "HOME".toList).getD []
    | ['-'] :: _ => (machine.value? "OLDPWD".toList).getD here
    | target :: _ => target
  let path := resolvePath here target
  if !machine.isDirectory path then Run.fail ("can't cd to ".toList ++ target)
  set { machine with
    tree := { machine.tree with home := Path.steps (System.pathOf path) } }
  Run.assign "OLDPWD".toList here
  Run.assign Machine.dirVariable path
  if args.head? = some ['-'] then Run.print (path ++ ['\n']) else return 0

def pwd : Run Nat := do
  Run.print ((← get).dir ++ ['\n'])

def statusOf (args : List Chars) : Run Nat := do
  match args with
  | [] => return (← get).status
  | status :: _ => Run.number status

def leaveLoops (jump : Nat → Jump) (args : List Chars) : Run Nat := do
  let count ← match args with
    | [] => pure 1
    | count :: _ => Run.number count
  if count = 0 then Run.fail ("Illegal number: ".toList ++ args.headD [])
  let open? := (← get).loops
  if open? = 0 then return 0 else throw (jump (min count open?))

/-- Sets what is run when the script ends or a signal comes, or shows it. -/
def trap (args : List Chars) : Run Nat := do
  let (_, args) ← letters "" args
  match args with
  | [] => do Run.print (Listing.traps (← get).traps)
  | [name] => setAll none [name]
  | action :: names =>
    if (Signal.ofText? action).isSome && action.all Char.isDigit then setAll none (action :: names)
    else setAll (if action = ['-'] then none else some action) names
where
  setAll (action : Option Chars) : List Chars → Run Nat
    | [] => return 0
    | name :: names => do
      match Signal.ofText? name with
      | none =>
        discard <| Run.write 2 ("trap: ".toList ++ name ++ ": bad trap\n".toList)
        return 1
      | some signal =>
        modify fun machine =>
          { machine with traps := match action with
              | some action => put signal action machine.traps
              | none => remove signal machine.traps }
        setAll action names

/-- What a command that sends signals is told: the signal, whether it is to show names instead, and
where to send the signal. -/
structure Sending where
  signal? : Option Nat
  showsNames : Bool
  targets : List Chars

/-- The signal of a name or number. No name means the end of the script here. -/
def sent? (text : Chars) : Option Nat :=
  (Signal.ofText? text).filter fun signal => signal ≠ 0 || text.all Char.isDigit

/-- Reads the flags of one argument, with the arguments behind it. -/
def sendingLetters : Chars → Sending → Run Sending
  | [], sending => return sending
  | 'l' :: letters, sending => sendingLetters letters { sending with showsNames := true }
  | 's' :: letters, sending => do
    let (name, rest) ← match letters, sending.targets with
      | [], [] => Run.fail "No arg for -s option".toList
      | [], name :: rest => pure (name, rest)
      | name, rest => pure (name, rest)
    match sent? name with
    | none => Run.fail ("invalid signal number or name: ".toList ++ name)
    | signal? => return { sending with signal?, targets := rest }
  | letter :: _, _ => Run.fail ("Illegal option -".toList ++ [letter])

/-- Reads the flags of a command that sends signals. The number bounds the arguments. -/
def sendingWithin : Nat → Sending → Run Sending
  | 0, sending => return sending
  | bound + 1, sending =>
    match sending.targets with
    | ['-', '-'] :: rest => return { sending with targets := rest }
    | ('-' :: letter :: letters) :: rest => do
      sendingWithin bound (← sendingLetters (letter :: letters) { sending with targets := rest })
    | _ => return sending

/-- Reads the arguments of a command that sends signals. -/
def sending (args : List Chars) : Run Sending := do
  let first? := match args with
    | ('-' :: name) :: _ => sent? name
    | _ => none
  let sending ← match first? with
    | some signal => pure { signal? := some signal, showsNames := false, targets := args.tail }
    | none =>
      sendingWithin args.length { signal? := none, showsNames := false, targets := args }
  if !sending.showsNames && sending.targets = [] then
    Run.fail ("Usage: kill [-s sigspec | -signum | -sigspec] [pid | job]... or\n" ++
      "kill -l [exitstatus]").toList
  return sending

def showSignals (args : List Chars) : Run Nat := do
  match args with
  | [] => Run.print Listing.signals
  | status :: _ => do
    let number ← Run.number status
    let signal := if number > 128 then number - 128 else number
    if signal = 0 || signal > Signal.last then
      Run.fail ("invalid signal number or exit status: ".toList ++ status)
    Run.print (Signal.name signal ++ ['\n'])

def mask (args : List Chars) : Run Nat := do
  let (flags, args) ← letters "S" args
  let mask := (← get).mask
  match args with
  | [] => Run.print ((if flags = [] then Mask.digits mask else Mask.letters mask) ++ ['\n'])
  | text :: _ => do
    let isNumber := text.head?.any Char.isDigit
    match if isNumber then Mask.ofDigits? text else Mask.ofChanges? text mask with
    | some mask => modify fun machine => { machine with mask }
    | none => Run.fail ((if isNumber then "Illegal number: " else "Illegal mode: ").toList ++ text)
    return 0

def unknownAlias (command : String) (name : Chars) : Run Bool := do
  discard <| Run.write 2 (command.toList ++ ": ".toList ++ name ++ " not found\n".toList)
  return false

def setAlias (args : List Chars) : Run Nat := do
  if args = [] then Run.print (Listing.aliases (← get).aliases)
  else
    let known ← args.mapM fun arg => do
      let name := arg.take 1 ++ arg.tail.takeWhile (· ≠ '=')
      if name.length < arg.length then
        modify fun machine =>
          { machine with aliases := put name (arg.drop (name.length + 1)) machine.aliases }
        return true
      else
        match (← get).aliases.lookup name with
        | some text => do
          discard <| Run.print (Listing.setting name text ++ ['\n'])
          return true
        | none => unknownAlias "alias" name
    return if known.all id then 0 else 1

def unalias (args : List Chars) : Run Nat := do
  let (flags, args) ← letters "a" args
  if flags ≠ [] then
    modify fun machine => { machine with aliases := [] }
    return 0
  let known ← args.mapM fun name => do
    let machine ← get
    if (machine.aliases.lookup name).isNone then unknownAlias "unalias" name
    else
      set { machine with aliases := remove name machine.aliases }
      return true
  return if known.all id then 0 else 1

/-- There are never other commands that run on, of which one could be chosen. -/
def job (args : List Chars) : Run Nat :=
  match args with
  | [] => Run.fail "No current job".toList
  | name :: _ => Run.fail ("No such job: ".toList ++ name)

def jobs (args : List Chars) : Run Nat := do
  match ← letters "lp" args with
  | (_, []) => return 0
  | (_, name :: _) => Run.fail ("No such job: ".toList ++ name)

def limit (args : List Chars) : Run Nat := do
  let (_, args) ← letters "HSatfdscmlpnvwr" args
  if args = [] then Run.print "unlimited\n".toList else return 0

def times : Run Nat :=
  Run.print (List.replicate 2 "0m0.000000s 0m0.000000s\n".toList).flatten

def isKeyword (name : Chars) : Bool :=
  (Keyword.ofText? name).isSome

def meaning (toolPath? : Chars → Option Chars) (name : Chars) : Run (Option String × Chars) := do
  let machine ← get
  if isKeyword name then return (some "a shell keyword", name)
  else if let some text := machine.aliases.lookup name then
    return (some ("an alias for " ++ String.ofList text),
      "alias ".toList ++ Listing.setting name text)
  else if (machine.functions.lookup name).isSome then return (some "a shell function", name)
  else if isSpecial name then return (some "a special shell builtin", name)
  else if isBuiltin name then return (some "a shell builtin", name)
  else
    let isThere := name.contains '/' && (machine.fileKind? name).isSome
    match if isThere then some name else toolPath? name with
    | some path => return (some (String.ofList path), path)
    | none => return (none, name)

def type (toolPath? : Chars → Option Chars) (args : List Chars) : Run Nat := do
  let found ← args.mapM fun name => do
    match (← meaning toolPath? name).1 with
    | some text =>
      discard <| Run.print (name ++ " is ".toList ++ text.toList ++ ['\n'])
      return true
    | none =>
      discard <| Run.print (name ++ ": not found\n".toList)
      return false
  return if found.all id then 0 else 127

def hash (toolPath? : Chars → Option Chars) (args : List Chars) : Run Nat := do
  let (flags, names) ← letters "r" args
  if flags ≠ [] then return 0
  let found ← names.mapM fun name => do
    let isThere := isBuiltin name || ((← get).functions.lookup name).isSome ||
      (toolPath? name).isSome
    if !isThere then Run.report (name ++ ": not found".toList)
    return isThere
  return if found.all id then 0 else 1

def commandPath (toolPath? : Chars → Option Chars) (args : List Chars) : Run Nat := do
  match args with
  | [] => return 0
  | name :: _ =>
    match ← meaning toolPath? name with
    | (some _, path) => Run.print (path ++ ['\n'])
    | (none, _) => return 127

def wait (args : List Chars) : Run Nat := do
  match args with
  | [] => return 0
  | number :: _ =>
    if number = asideNumber then return (← get).aside.getD 127
    else
      discard (Run.number number)
      return 127

/-- Runs a command of the script itself, if the name is that of one that runs no other. -/
def run? (toolPath? : Chars → Option Chars) (name : Chars) (args : List Chars) : Option (Run Nat) :=
  match String.ofList name with
  | ":" | "true" => some (pure 0)
  | "false" => some (pure 1)
  | "echo" => some (echo args)
  | "printf" => some (printf args)
  | "test" => some (check false args)
  | "[" => some (check true args)
  | "read" => some (read args)
  | "getopts" => some (getopts args)
  | "shift" => some (shift args)
  | "set" => some (setAll args)
  | "unset" => some (unset args)
  | "export" => some (markExported args)
  | "readonly" => some (markReadOnly args)
  | "local" => some (localize args)
  | "cd" | "chdir" => some (cd args)
  | "pwd" => some pwd
  | "exit" => some do throw (.exited ((← statusOf args) % 256))
  | "return" => some do throw (.returned (← statusOf args))
  | "break" => some (leaveLoops Jump.broke args)
  | "continue" => some (leaveLoops Jump.continued args)
  | "trap" => some (trap args)
  | "umask" => some (mask args)
  | "ulimit" => some (limit args)
  | "alias" => some (setAlias args)
  | "unalias" => some (unalias args)
  | "times" => some times
  | "fg" | "bg" => some (job args)
  | "jobs" => some (jobs args)
  | "hash" => some (hash toolPath? args)
  | "type" => some (type toolPath? args)
  | "wait" => some (wait args)
  | _ => none

end CallFlow.Layout.Script.Builtin
