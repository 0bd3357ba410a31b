import CallFlow.Layout.Script.Builtin
import CallFlow.Layout.Script.Grammar
import CallFlow.Layout.Script.PathPattern
import CallFlow.Layout.Script.Sum
import CallFlow.Layout.Tool.Flag

namespace CallFlow.Layout.Script.Evaluation

abbrev Tools := Chars → Option Program

def isInterpreter (name : Chars) : Bool :=
  name = "sh".toList || name = "dash".toList

def isTool (tools : Tools) (name : Chars) : Bool :=
  isInterpreter name || name = "env".toList || (tools name).isSome

/-- The path at which a tool is found, whether it can be run here or not. -/
def toolPath? (tools : Tools) (path : Chars) : Option Chars :=
  match System.toolName? path with
  | some name =>
    if !isTool tools name && !System.tools.contains (String.ofList name) then none
    else if path.contains '/' then some path else some ("/usr/bin/".toList ++ path)
  | none => none

def longestLoop : Nat := 100000

def cycle : Nat → (step : Nat → Run (Bool × Nat)) → (status : Nat) → Run Nat
  | 0, _, status => return status
  | rounds + 1, step, status => do
    let (goesOn, status) ← step status
    if goesOn then cycle rounds step status else return status

def cycleOver : List Chars → (step : Chars → Run (Bool × Nat)) → (status : Nat) → Run Nat
  | [], _, status => return status
  | value :: values, step, _ => do
    let (goesOn, status) ← step value
    if goesOn then cycleOver values step status else return status

/-- Runs the body of a loop: whether the loop goes on, and with which status. -/
def roundOf (body : Run Unit) : Run (Bool × Nat) := do
  match ← Run.caught body with
  | .ok () => return (true, (← get).status)
  | .error (.broke 1) => return (false, 0)
  | .error (.continued 1) => return (true, 0)
  | .error (.broke loops) => throw (.broke (loops - 1))
  | .error (.continued loops) => throw (.continued (loops - 1))
  | .error jump => throw jump

/-- Runs something inside one more loop. -/
def inLoop {α : Type} (body : Run α) : Run α :=
  Run.keeping (fun before after => { after with loops := before.loops }) do
    modify fun machine => { machine with loops := machine.loops + 1 }
    body

/-- Runs something and leads the descriptors where they led before. -/
def withOutlets {α : Type} (body : Run α) : Run α :=
  Run.keeping (fun before after => { after with outlets := before.outlets }) body

def withCommand {α : Type} (name : Chars) (body : Run α) : Run α :=
  Run.keeping (fun before after => { after with inCommand := before.inCommand }) do
    modify fun machine => { machine with inCommand := some name }
    body

def setStatus (status : Nat) : Run Unit :=
  modify fun machine => { machine with status }

def statusIf (any : Bool) : Run Nat := do
  if any then return (← get).status else return 0

def setLine (line : Nat) : Run Unit :=
  modify fun machine => { machine with line }

def checkStatus (tested : Bool) : Run Unit := do
  let machine ← get
  if !tested && machine.status ≠ 0 && machine.hasOption 'e' then throw (.exited machine.status)

/-- The quotation mark before the arguments as a whole makes no field where there are none. -/
def withoutMarkers : Word → Word
  | .quoted [] :: .value true ['@'] .whole :: rest =>
    match rest with
    | .value true _ _ :: _ | .output true _ :: _ | .sum true _ :: _ =>
      .quoted [] :: .value true ['@'] .whole :: withoutMarkers rest
    | _ => .value true ['@'] .whole :: withoutMarkers rest
  | part :: rest => part :: withoutMarkers rest
  | [] => []

def tilde? (machine : Machine) : Word → Option (Chars × Word)
  | .plain ('~' :: text) :: rest =>
    let name := text.takeWhile (· ≠ '/')
    if name ≠ [] || (text = [] && !rest.isEmpty) then none
    else some ((machine.value? "HOME".toList).getD ['~'], .plain text :: rest)
  | _ => none

def specialValue? (machine : Machine) (name : Chars) : Option Chars :=
  match name with
  | ['#'] => some (toString machine.args.length).toList
  | ['?'] => some (toString machine.status).toList
  | ['$'] => some processNumber
  | ['!'] => machine.aside.map fun _ => asideNumber
  | ['-'] => some machine.options
  | ['0'] => some machine.name
  | _ =>
    if name.all Char.isDigit then machine.args[ofDigits 10 name - 1]? else machine.value? name

def isArguments (name : Chars) : Bool :=
  name = ['@'] || name = ['*']

def valueMarks? (machine : Machine) (full inQuotes : Bool) (name : Chars) : Option (List Mark) :=
  if !isArguments name then (specialValue? machine name).map (Mark.ofValue inQuotes)
  else if full && inQuotes && name = ['@'] then
    some ((machine.args.map fun arg => .empty :: Mark.quoted arg).intersperse [.edge true]).flatten
  else if full && !inQuotes then
    some ((machine.args.map (Mark.ofValue false)).intersperse [.edge false]).flatten
  else some (Mark.ofValue inQuotes (machine.args.intersperse machine.joint).flatten)

/-- What is made of a value that is there. -/
def isReplaced (emptyToo : Bool) (found : Option (List Mark)) : Bool :=
  match found with
  | none => true
  | some marks => emptyToo && Mark.text marks = []

def asValue (text : Chars) : Chars :=
  ((text.filter (· ≠ '\x00')).reverse.dropWhile (· = '\n')).reverse

def calculate (expression : Chars) : Run Chars := do
  let machine ← get
  let outside (name : Chars) : Chars := (machine.value? name).getD []
  match Sum.evaluate outside expression with
  | .error fault => Run.fail (fault.message expression)
  | .ok (value, given) =>
    given.reverse.forM fun (name, value) => Run.assign name (toString value.toInt).toList
    return (toString value.toInt).toList

def takesAssignments (words : List Word) : Bool :=
  match words with
  | [.plain name] :: _ => ["export", "readonly", "local"].contains (String.ofList name)
  | _ => false

def refuseMonitor : Run Unit := do
  modify fun machine => machine.setOption false 'm'
  Run.report "can't access tty; job control turned off".toList

/-- What a redirection comes to: the descriptor, and what it is to lead to. -/
structure Aim where
  descriptor : Nat
  kind : RedirectKind
  target : Chars

def isDescriptor (text : Chars) : Bool :=
  match text with
  | [c] => c = '-' || c.isDigit
  | _ => false

def cannotOpen {α : Type} (target : Chars) (reason : String) : Run α :=
  Run.fail ("cannot open ".toList ++ target ++ ": ".toList ++ reason.toList)

def cannotCreate {α : Type} (target : Chars) (reason : String) : Run α :=
  Run.fail ("cannot create ".toList ++ target ++ ": ".toList ++ reason.toList)

def lead (descriptor : Nat) (outlet : Outlet) : Run Unit :=
  modify fun machine => { machine with outlets := put descriptor outlet machine.outlets }

def copyOutlet (descriptor source : Nat) : Run Unit := do
  match (← get).outlet? source with
  | some outlet => lead descriptor outlet
  | none => Run.fail ((toString source).toList ++ ": Bad file descriptor".toList)

def openSource (descriptor : Nat) (text : Chars) : Run Unit := do
  let (number, machine) := (← get).openChannel text
  set machine
  lead descriptor (.source number)

def openingReason (fault : FileFault) (absent : String) : String :=
  match fault with
  | .notFound | .notDirectory => absent
  | fault => fault.reason

def openToRead (descriptor : Nat) (target : Chars) : Run Unit := do
  match System.device? target, System.descriptor? target with
  | some device, _ =>
    match device.absence? with
    | some reason => cannotOpen target reason
    | none => lead descriptor (.device device)
  | none, some source => copyOutlet descriptor source
  | none, none =>
    match (← get).tree.find (System.pathOf target) with
    | .ok (.file content) => openSource descriptor (charsOfBytes content.bytes)
    | .ok .directory => lead descriptor .directory
    | .error fault => cannotOpen target (openingReason fault "No such file")

def openToWrite (descriptor : Nat) (keeps spares : Bool) (target : Chars) : Run Unit := do
  match System.device? target, System.descriptor? target with
  | some device, _ =>
    match device.absence? with
    | some reason => cannotCreate target reason
    | none => lead descriptor (.device device)
  | none, some source => copyOutlet descriptor source
  | none, none => do
    let machine ← get
    match machine.tree.target (System.pathOf target) with
    | .error fault => cannotCreate target (openingReason fault "Directory nonexistent")
    | .ok place => do
      let isThere := (machine.tree.item? place).isSome
      if isThere && spares && machine.hasOption 'C' then
        cannotCreate target (FileFault.reason .alreadyExists)
      if !(isThere && keeps) then
        set { machine with tree := machine.tree.put place (.file (.text "")) }
      lead descriptor (.file place)

def redirectTo (aim : Aim) : Run Unit := do
  match aim.kind with
  | .read => openToRead aim.descriptor aim.target
  | .write => openToWrite aim.descriptor false true aim.target
  | .overwrite => openToWrite aim.descriptor false false aim.target
  | .append => openToWrite aim.descriptor true false aim.target
  | .readWrite =>
    openToWrite aim.descriptor true false aim.target
    openToRead aim.descriptor aim.target
  | .document _ => openSource aim.descriptor aim.target
  | .copy =>
    if aim.target = ['-'] then
      modify fun machine => { machine with outlets := remove aim.descriptor machine.outlets }
    else copyOutlet aim.descriptor (ofDigits 10 aim.target)

def trace (descriptor : Option Outlet) (assignments : List (Chars × Chars)) (words : List Chars) :
    Run Unit := do
  let machine ← get
  if machine.hasOption 'x' then
    let shown := assignments.map (fun (name, value) => name ++ '=' :: value) ++ words
    let line := (machine.value? "PS4".toList).getD [] ++ (shown.intersperse [' ']).flatten ++ ['\n']
    match machine.write? descriptor line with
    | some after => set after
    | none => pure ()

/-- Runs the lines of a source one after the other, and says whether there was a command. -/
def runLines (run : List Command → Run Unit) : Nat → Source → (any : Bool) → Run Bool
  | 0, _, any => return any
  | lines + 1, source, any => do
    match Reader.line?.run { source with aliases := (← get).aliases } with
    | .error complaint =>
      setLine complaint.line
      Run.fail complaint.message.toList
    | .ok (none, _) => return any
    | .ok (some commands, rest) => do
      modify fun machine => { machine with documents := rest.documents, nextLine := rest.line }
      run commands
      runLines run lines rest (any || !commands.isEmpty)

/-- What a tool, which has ended, leaves behind. What it prints where nothing can be written is lost,
and it complains. -/
def settle (call : Call) (outcome : Outcome) : Run Nat := do
  modify (·.leave 0 outcome.left)
  match outcome.tree? with
  | some tree =>
    modify fun machine => { machine with tree := { tree with home := machine.tree.home } }
  | none => pure ()
  let refusal? := if outcome.output = [] then none else call.outputFault
  if outcome.output ≠ [] then discard <| Run.write 1 outcome.output
  let errors := outcome.errors ++ match refusal? with
    | some reason => call.complaint ("write error: ".toList ++ reason.toList)
    | none => []
  if errors ≠ [] then discard <| Run.write 2 errors
  match outcome.ending with
  | .exited status => return if refusal?.isSome then max status 1 else status
  | .killed signal =>
    match Signal.endMessage? signal with
    | some message => discard <| Run.write 2 (message ++ "\n").toList
    | none => pure ()
    return 128 + signal

def environment (args : List Chars) : List (Chars × Chars) × List Chars :=
  let settings := args.takeWhile (·.contains '=')
  (settings.map fun setting =>
      let name := setting.takeWhile (· ≠ '=')
      (name, setting.drop (name.length + 1)),
    args.drop settings.length)

/-- How a script is given to an interpreter: as an argument, in a file or through its input. -/
inductive Given where
  | text (script : Chars)
  | file (path : Chars)
  | input
  | refused (message : Chars)
  deriving DecidableEq, Repr

structure Started where
  given : Given
  options : Chars
  name : Option Chars
  args : List Chars

/-- Reads the letters of one argument of an interpreter: the options that are on then, and the
arguments behind it that do not belong to it. -/
def startLetters (turnsOn : Bool) : Chars → (letters : Chars) → List Chars →
    Except Chars (Chars × List Chars)
  | [], letters, rest => .ok (letters, rest)
  | 'o' :: more, letters, [] => startLetters turnsOn more letters []
  | 'o' :: more, letters, name :: rest =>
    match Machine.optionNames.lookup (String.ofList name) with
    | none => .error ("Illegal option -o ".toList ++ name)
    | some letter? =>
      let others := letters.filter (some · ≠ letter?)
      startLetters turnsOn more (if turnsOn then letter?.toList ++ others else others) rest
  | letter :: more, letters, rest =>
    if letter = 'c' || letter = 'l' then startLetters turnsOn more (letter :: letters) rest
    else if !Machine.optionLetters.contains letter then
      .error ("Illegal option -".toList ++ [letter])
    else
      let others := letters.filter (· ≠ letter)
      startLetters turnsOn more (if turnsOn then letter :: others else others) rest

/-- Reads the arguments of an interpreter. -/
def started (args : List Chars) : Started :=
  options (args.length + 1) [] args
where
  refuse (message : Chars) : Started :=
    { given := .refused message, options := [], name := none, args := [] }
  options : Nat → (letters : Chars) → List Chars → Started
    | 0, letters, rest => finish letters rest
    | bound + 1, letters, args =>
      match args with
      | ['-'] :: rest | ['-', '-'] :: rest => finish letters rest
      | ('-' :: more) :: rest => goOn bound (startLetters true more letters rest)
      | ('+' :: more) :: rest => goOn bound (startLetters false more letters rest)
      | rest => finish letters rest
  goOn (bound : Nat) : Except Chars (Chars × List Chars) → Started
    | .error message => refuse message
    | .ok (letters, rest) => options bound letters rest
  finish (letters : Chars) (rest : List Chars) : Started :=
    let on (letters : Chars) : Chars := Machine.optionLetters.filter letters.contains
    if letters.contains 'c' then
      match rest with
      | [] => refuse "-c requires an argument".toList
      | script :: rest =>
        { given := .text script, options := on letters, name := rest.head?, args := rest.tail }
    else if letters.contains 's' then
      { given := .input, options := on letters, name := none, args := rest }
    else
      match rest with
      | [] => { given := .input, options := on ('s' :: letters), name := none, args := [] }
      | path :: rest =>
        { given := .file path, options := on letters, name := some path, args := rest }

def outcomeOf (machine : Machine) (ending : Ending) : Outcome :=
  { output := machine.channel 1, errors := machine.channel 2, ending, left := machine.channel 0
    tree? := some machine.tree }

mutual

/-- The marks that a word comes to. Only where fields are asked for (`full`), arguments are kept
apart. -/
def expand (tools : Tools) : Nat → (full : Bool) → Word → Run (List Mark)
  | 0, _, _ => throw (.killed 11)
  | depth + 1, full, word => do
    let (start, word) := match tilde? (← get) word with
      | some (home, rest) => (Mark.quoted home, rest)
      | none => ([], withoutMarkers word)
    let marks ← word.mapM (expandPart tools depth full)
    return start ++ marks.flatten

def expandPart (tools : Tools) : Nat → (full : Bool) → Part → Run (List Mark)
  | 0, _, _ => throw (.killed 11)
  | depth + 1, full, part => do
    match part with
    | .plain text => return Mark.plain text
    | .quoted [] => return [.empty]
    | .quoted text => return Mark.quoted text
    | .value inQuotes name use => expandValue tools depth full inQuotes name use
    | .output inQuotes body => do
      let (number, machine) := (← get).openChannel []
      set machine
      let status ← apart tools depth (fun machine =>
          { machine with outlets := put 1 (.sink number) machine.outlets })
        (executeAll tools depth false body)
      modify fun machine => { machine with outputStatus := status }
      return Mark.ofValue inQuotes (asValue ((← get).channel number))
    | .sum inQuotes expression => do
      let text ← expand tools depth false expression
      return Mark.ofValue inQuotes (← calculate (Mark.text text))

def expandValue (tools : Tools) : Nat → (full inQuotes : Bool) → Chars → Use → Run (List Mark)
  | 0, _, _, _, _ => throw (.killed 11)
  | depth + 1, full, inQuotes, name, use => do
    let machine ← get
    let found := valueMarks? machine full inQuotes name
    let required : Run (List Mark) := do
      if found.isNone && machine.hasOption 'u' && !isArguments name then
        Run.fail (name ++ ": parameter not set".toList)
      return found.getD []
    let instead (word : Word) : Run (List Mark) := do
      let marks ← expand tools depth full word
      return if inQuotes then marks else marks.map Mark.asValue
    match use with
    | .whole => required
    | .length => do
      return Mark.ofValue inQuotes (toString (Mark.edgedText (← required)).length).toList
    | .orElse emptyToo word =>
      if isReplaced emptyToo found then instead word else return found.getD []
    | .andThen emptyToo word =>
      if isReplaced emptyToo found then return [] else instead word
    | .orAssign emptyToo word =>
      if isReplaced emptyToo found then
        let text := Mark.text (← expand tools depth false word)
        if !isName name then Run.fail (name ++ ": bad variable name".toList)
        Run.assign name text
        return Mark.ofValue inQuotes text
      else return found.getD []
    | .orFail emptyToo word =>
      if isReplaced emptyToo found then
        let reason := if emptyToo then "parameter not set or null" else "parameter not set"
        let text ← if word.isEmpty then pure reason.toList
          else Mark.text <$> expand tools depth false word
        Run.fail (name ++ ": ".toList ++ text)
      else return found.getD []
    | .cutStart longest pattern => do
      let text := Mark.edgedText (← required)
      let pattern := Mark.pattern (← expand tools depth false pattern)
      return Mark.ofEdged inQuotes (Pattern.cutStart longest pattern text)
    | .cutEnd longest pattern => do
      let text := Mark.edgedText (← required)
      let pattern := Mark.pattern (← expand tools depth false pattern)
      return Mark.ofEdged inQuotes (Pattern.cutEnd longest pattern text)
    | .unknown => Run.fail "Bad substitution".toList

def fields (tools : Tools) : Nat → List Word → Run (List Chars)
  | 0, _ => throw (.killed 11)
  | depth + 1, words => do
    let keepsValues := takesAssignments words
    let all ← words.mapM fun word => do
      if keepsValues && (Reader.assignment? word).isSome then
        return [Mark.text (← expand tools depth false word)]
      else
        let marks ← expand tools depth true word
        let machine ← get
        let fields := fieldsOf machine.separators marks
        return if machine.hasOption 'f' then fields.map Mark.text
          else fields.flatMap (PathPattern.expand machine.tree)
    return all.flatten

def aims (tools : Tools) : Nat → List Redirect → Run (List Aim)
  | 0, _ => throw (.killed 11)
  | depth + 1, redirects =>
    redirects.mapM fun (.mk descriptor kind target) => do
      let machine ← get
      let word := match kind with
        | .document number => (machine.documents.lookup number).getD []
        | _ => target
      let target := Mark.text (← expand tools depth false word)
      if kind = .copy && !isDescriptor target then
        setLine machine.nextLine
        Run.fail "Syntax error: Bad fd number".toList
      return { descriptor, kind, target }

/-- Runs something on its own: all that it changes is what is written and read. -/
def apart (tools : Tools) : Nat → (prepare : Machine → Machine) → Run Unit → Run Nat
  | 0, _, _ => throw (.killed 11)
  | depth + 1, prepare, body =>
    Run.keeping (fun before after =>
        { before with
          channels := after.channels, tree := { after.tree with home := before.tree.home } }) do
      modify fun machine =>
        prepare { machine with traps := machine.traps.filter (·.2 = []), nextLine := 1 }
      ended tools depth (← Run.caught body)

/-- Comes to the end of a script: runs what is to be run then, and tells the status. -/
def ended (tools : Tools) : Nat → Except Jump Unit → Run Nat
  | 0, _ => throw (.killed 11)
  | depth + 1, result => do
    let status ← match result with
      | .ok () => pure (← get).status
      | .error (.exited status) | .error (.failed status) | .error (.returned status) => pure status
      | .error (.broke _) | .error (.continued _) => pure 0
      | .error (.killed signal) => throw (.killed signal)
    match (← get).traps.lookup 0 with
    | none | some [] => return status % 256
    | some action => do
      modify fun machine => { machine with traps := remove 0 machine.traps, status }
      match ← Run.caught (runText tools depth false action) with
      | .error (.exited status) | .error (.failed status) => return status % 256
      | .error (.killed signal) => throw (.killed signal)
      | _ => return status % 256

def runText (tools : Tools) : Nat → (tested : Bool) → Chars → Run Bool
  | 0, _, _ => throw (.killed 11)
  | depth + 1, tested, text => do
    let source := { Source.ofChars text with documents := (← get).documents }
    Run.keeping (fun before after => { after with nextLine := before.nextLine }) do
      runLines (executeAll tools depth tested) (text.length + 1) source false

def executeAll (tools : Tools) : Nat → (tested : Bool) → List Command → Run Unit
  | 0, _, _ => throw (.killed 11)
  | depth + 1, tested, commands => commands.forM (execute tools depth tested)

def execute (tools : Tools) : Nat → (tested : Bool) → Command → Run Unit
  | 0, _, _ => throw (.killed 11)
  | depth + 1, tested, command => do
    if (← get).hasOption 'n' then return
    match command with
    | .simple line assignments words redirects =>
      setLine line
      setStatus (← simple tools depth tested assignments words redirects)
      checkStatus tested
    | .pipe commands =>
      let before := ((← get).outlet? 0).getD .nowhere
      setStatus (← pipe tools depth tested before commands)
      checkStatus tested
    | .negate command =>
      execute tools depth true command
      modify fun machine => { machine with status := if machine.status = 0 then 1 else 0 }
    | .both first second =>
      execute tools depth true first
      if (← get).status = 0 then execute tools depth tested second
    | .either first second =>
      execute tools depth true first
      if (← get).status ≠ 0 then execute tools depth tested second
    | .background command =>
      let status ← apart tools depth (fun machine =>
          { machine with outlets := put 0 .nowhere machine.outlets })
        (execute tools depth false command)
      modify fun machine => { machine with aside := some status, status := 0 }
    | .subshell line body redirects =>
      setLine line
      let aims ← aims tools depth redirects
      let status ← apart tools depth id do
        aims.forM redirectTo
        executeAll tools depth tested body
      setStatus status
      checkStatus tested
    | .group line body redirects =>
      setLine line
      let aims ← aims tools depth redirects
      withOutlets do
        match ← Run.caught (aims.forM redirectTo) with
        | .error (.failed status) => setStatus status
        | .error jump => throw jump
        | .ok () => executeAll tools depth tested body
    | .branch test thenPart elsePart =>
      executeAll tools depth true test
      if (← get).status = 0 then executeAll tools depth tested thenPart
      else if elsePart.isEmpty then setStatus 0
      else executeAll tools depth tested elsePart
    | .loop untilTrue test body =>
      setStatus (← inLoop (cycle longestLoop (fun status => do
        let (goesOn, found) ← roundOf (executeAll tools depth true test)
        if !goesOn then return (false, status)
        if (found = 0) = untilTrue then return (false, status)
        roundOf (executeAll tools depth tested body)) 0))
    | .each line name words body =>
      setLine line
      let values ← fields tools depth words
      setStatus (← inLoop (cycleOver values (fun value => do
        Run.assign name value
        roundOf (executeAll tools depth tested body)) 0))
    | .choose line word choices =>
      setLine line
      let text := Mark.text (← expand tools depth false word)
      match ← choices.findM? fun (patterns, _) => fits tools depth text patterns with
      | some (_, body) =>
        if body.isEmpty then setStatus 0 else executeAll tools depth tested body
      | none => setStatus 0
    | .define name body =>
      modify fun machine => { machine with functions := put name body machine.functions, status := 0 }

/-- Whether one of some patterns stands for a text. -/
def fits (tools : Tools) : Nat → Chars → List Word → Run Bool
  | 0, _, _ => throw (.killed 11)
  | depth + 1, text, patterns =>
    patterns.anyM fun pattern => do
      return Pattern.matchesAll (Mark.pattern (← expand tools depth false pattern)) text

/-- Runs commands at the same time, each fed with what the one before prints. -/
def pipe (tools : Tools) : Nat → (tested : Bool) → Outlet → List Command → Run Nat
  | 0, _, _, _ => throw (.killed 11)
  | _, _, _, [] => return 0
  | depth + 1, tested, input, [command] =>
    apart tools depth (fun machine => { machine with outlets := put 0 input machine.outlets })
      (execute tools depth tested command)
  | depth + 1, tested, input, command :: rest => do
    let (number, machine) := (← get).openChannel []
    set machine
    discard <| apart tools depth (fun machine =>
        { machine with outlets := put 1 (.sink number) (put 0 input machine.outlets) })
      (execute tools depth tested command)
    pipe tools depth tested (.source number) rest

def simple (tools : Tools) : Nat → (tested : Bool) → List (Chars × Word) → List Word →
    List Redirect → Run Nat
  | 0, _, _, _, _ => throw (.killed 11)
  | depth + 1, tested, assignments, words, redirects => do
    modify fun machine => { machine with outputStatus := 0 }
    let args ← fields tools depth words
    let errorOutlet := (← get).outlet? 2
    let aims ← aims tools depth redirects
    let name := args.headD []
    let isFunction := ((← get).functions.lookup name).isSome
    let isSpecial := Builtin.isSpecial name && !args.isEmpty
    let keepsOutlets := name = "exec".toList && args.length = 1
    (if keepsOutlets then id else withOutlets) do
      match ← Run.caught (aims.forM redirectTo) with
      | .error (.failed status) => if isSpecial then throw (.failed status) else return status
      | .error jump => throw jump
      | .ok () =>
        let keepsVariables := args.isEmpty || (isSpecial && !isFunction)
        let restore (before after : Machine) : Machine :=
          if keepsVariables then after
          else
            { after with values := assignments.foldl (fun values (name, _) =>
                put name (before.lookup name) values) after.values }
        Run.keeping restore do
          let given ← assignments.mapM fun (name, word) => do
            let value := Mark.text (← expand tools depth false word)
            Run.assign name value
            return (name, value)
          trace errorOutlet given args
          match args with
          | [] => return (← get).outputStatus
          | name :: args =>
            if !keepsVariables then
              modify fun machine => { machine with
                values := given.foldl (fun values (name, _) =>
                  put name { machine.lookup name with isExported := true } values)
                  machine.values }
            dispatch tools depth tested name args

def dispatch (tools : Tools) : Nat → (tested : Bool) → Chars → List Chars → Run Nat
  | 0, _, _, _ => throw (.killed 11)
  | depth + 1, tested, name, args => do
    match Builtin.isSpecial name, (← get).functions.lookup name with
    | false, some body => call tools depth tested body args
    | isSpecial, _ =>
      if !Builtin.isBuiltin name then external tools depth name args
      else
        match ← Run.caught (withCommand name (builtin tools depth tested name args)) with
        | .ok status => return status
        | .error (.failed status) => if isSpecial then throw (.failed status) else return status
        | .error jump => throw jump

def call (tools : Tools) : Nat → (tested : Bool) → Command → List Chars → Run Nat
  | 0, _, _, _ => throw (.killed 11)
  | depth + 1, tested, body, args =>
    Run.keeping (fun before after =>
        let kept := (after.outside.head?).getD []
        { after with args := before.args, optionPlace := before.optionPlace
                     loops := before.loops, outside := before.outside
                     values := kept.foldl (fun values (name, old) =>
                       put name old values) after.values }) do
      modify fun machine => { machine with
        args, optionPlace := (1, none), loops := 0, outside := [] :: machine.outside }
      match ← Run.caught (execute tools depth tested body) with
      | .ok () => return (← get).status
      | .error (.returned status) => return status
      | .error jump => throw jump

def builtin (tools : Tools) : Nat → (tested : Bool) → Chars → List Chars → Run Nat
  | 0, _, _, _ => throw (.killed 11)
  | depth + 1, tested, name, args => do
    match Builtin.run? (toolPath? tools) name args with
    | some run => run
    | none => do
      match String.ofList name with
      | "eval" => do
        let any ← runText tools depth tested (args.intersperse [' ']).flatten
        statusIf any
      | "." =>
        match args with
        | [] => return 0
        | path :: _ => do
          if !path.contains '/' then Run.fail (path ++ ": not found".toList)
          match (← get).scriptAt? path with
          | none => cannotOpen path "No such file"
          | some text => do
            match ← Run.caught (withCommand path (runText tools depth tested text)) with
            | .ok any => statusIf any
            | .error (.returned status) => return status
            | .error jump => throw jump
      | "exec" =>
        match args with
        | [] => return 0
        | name :: args => do
          modify fun machine => { machine with traps := [] }
          if (toolPath? tools name).isNone then
            let status ← missing name
            throw (.failed status)
          throw (.exited (← external tools depth name args))
      | "command" => do
        let (flags, args) ← Builtin.letters "pvV" args
        if flags.contains 'v' then Builtin.commandPath (toolPath? tools) args
        else if flags.contains 'V' then Builtin.type (toolPath? tools) (args.take 1)
        else
          match args with
          | [] => return 0
          | name :: args =>
            if !Builtin.isBuiltin name then
              Run.keeping (fun before after => { after with inCommand := before.inCommand }) do
                modify fun machine => { machine with inCommand := none }
                external tools depth name args
            else
              match ← Run.caught (withCommand name (builtin tools depth tested name args)) with
              | .ok status => return status
              | .error (.failed status) => return status
              | .error jump => throw jump
      | "kill" => kill tools depth args
      | _ => return 0

def missing (name : Chars) : Run Nat := do
  let isThere := match (← get).fileKind? name with
    | some .executable | none => false
    | some _ => true
  if name.contains '/' && isThere then
    Run.report (name ++ ": Permission denied".toList)
    return 126
  else if name = [] || name = ['.', '.'] then
    -- Looked for in the directories of tools, both are directories.
    Run.report (name ++ ": Permission denied".toList)
    return 127
  else
    Run.report (name ++ ": not found".toList)
    return 127

def kill (tools : Tools) : Nat → List Chars → Run Nat
  | 0, _ => throw (.killed 11)
  | depth + 1, args => do
    let sending ← Builtin.sending args
    if sending.showsNames then Builtin.showSignals sending.targets
    else
      let statuses ← sending.targets.mapM fun target => do
        if target = processNumber || target = ['0'] then
          receive tools depth (sending.signal?.getD 15)
          return 0
        else if target.head? = some '%' then Run.fail ("No such job: ".toList ++ target)
        else
          discard (Run.number (if target.head? = some '-' then target.tail else target))
          Run.report "No such process\n".toList
          return 1
      return statuses.foldl max 0

def receive (tools : Tools) : Nat → (signal : Nat) → Run Unit
  | 0, _ => throw (.killed 11)
  | depth + 1, signal => do
    let machine ← get
    if signal = 0 || Signal.harmless.contains signal then return
    match if signal = 9 then none else machine.traps.lookup signal with
    | none => throw (.killed signal)
    | some [] => return
    | some action => do
      discard <| Run.keeping (fun before after => { after with inCommand := before.inCommand }) do
        modify fun machine => { machine with inCommand := none }
        runText tools depth false action
      setStatus machine.status

def external (tools : Tools) : Nat → Chars → List Chars → Run Nat
  | 0, _, _ => throw (.killed 11)
  | depth + 1, path, args => do
    let machine ← get
    match (System.toolName? path).filter (isTool tools) with
    | none => missing path
    | some name =>
      let input : Call :=
        { name := path, args, input := machine.readable 0, tree := machine.tree
          inputFault := machine.readFault? 0, outputFault := machine.writeFault? 1
          aim? := match machine.outlet? 1 with
            | some (.file place) => some place
            | _ => none }
      if isInterpreter name then
        let exported := machine.values.filter (·.2.isExported)
        let own := Machine.givenVariables.filter fun (name, _) =>
          (machine.lookup name).isExported = false
        settle input (interpret tools depth input (own ++ exported))
      else if name = "env".toList then
        let (settings, rest) := environment args
        match rest with
        | [] =>
          let shown := machine.values.filter (·.2.isExported)
          Run.print (shown.flatMap fun (name, held) =>
            name ++ '=' :: held.value.getD [] ++ ['\n'])
        | name :: args =>
          apart tools depth id do
            settings.forM fun (name, value) => do
              Run.assign name value
              modify fun machine => { machine with
                values := put name { machine.lookup name with isExported := true }
                  machine.values }
            if (toolPath? tools name).isNone then
              discard <| Run.write 2 ("env: ".toList ++ Call.shown name ++
                ": No such file or directory\n".toList)
              setStatus 127
            else setStatus (← external tools depth name args)
      else
        match tools name with
        | some tool => settle input (tool input)
        | none => missing path

def interpret (tools : Tools) : Nat → Call → List (Chars × Variable) → Outcome
  | 0, call, _ => Outcome.refusing [] 2 call
  | depth + 1, call, given =>
    let started := started call.args
    let readsInput := started.given = .input
    let dir := charsOf (Path.fromRoot call.tree.home)
    let values := put Machine.dirVariable
      { value := some dir, isExported := true, isReadOnly := false } given
    let machine := Machine.start (started.name.getD call.name) started.args started.options
      (if readsInput then [] else call.input) call.tree values
    let body : Run Unit := do
      let script ← match started.given with
        | .text script => pure script
        | .input => pure call.input
        | .file path =>
          setLine 0
          match (← get).scriptAt? path with
          | some text => pure text
          | none => do
            modify fun machine => { machine with name := call.name }
            cannotOpen path "No such file"
        | .refused message =>
          setLine 0
          Run.fail message
      if (← get).hasOption 'm' then
        setLine 0
        refuseMonitor
      setLine 1
      discard <| runText tools depth false script
      -- A script can ask for more of it to be read from the input.
      let machine ← get
      if !readsInput && machine.hasOption 's' then
        set (machine.leave 0 [])
        discard <| runText tools depth false (machine.readable 0)
    let whole : Run Nat := do ended tools depth (← Run.caught body)
    match whole.run.run machine with
    | (.ok status, after) => outcomeOf after (.exited status)
    | (.error (.killed signal), after) => outcomeOf after (.killed signal)
    | (.error _, after) => outcomeOf after (.exited 2)

end

end CallFlow.Layout.Script.Evaluation
