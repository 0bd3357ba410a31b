import CallFlow.Layout.Script.Condition
import CallFlow.Layout.Script.Field
import CallFlow.Layout.Script.Syntax
import CallFlow.Layout.System

namespace CallFlow.Layout.Script

/-- Where a descriptor leads: to what can be read from a channel or written to it, to the end of a
file, to a device, or to a directory, which cannot be read. -/
inductive Outlet where
  | source (channel : Nat)
  | sink (channel : Nat)
  | file (place : Place)
  | device (device : System.Device)
  | directory
  deriving DecidableEq, Repr

/-- Where everything vanishes. -/
def Outlet.nowhere : Outlet := .device .empty

/-- What waits to be read, and what was written behind it, the last first. -/
structure Channel where
  rest : Chars
  added : List Chars

namespace Channel

def ofText (text : Chars) : Channel :=
  { rest := text, added := [] }

def text (channel : Channel) : Chars :=
  if channel.added.isEmpty then channel.rest
  else channel.rest ++ channel.added.reverse.flatten

def write (channel : Channel) (text : Chars) : Channel :=
  { channel with added := text :: channel.added }

end Channel

/-- A variable, which can be marked without having a value. -/
structure Variable where
  value : Option Chars
  isExported : Bool
  isReadOnly : Bool
  deriving DecidableEq, Repr

def Variable.unset : Variable :=
  { value := none, isExported := false, isReadOnly := false }

structure Machine where
  channels : Array Channel
  outlets : List (Nat × Outlet)
  tree : FileTree
  values : List (Chars × Variable)
  functions : List (Chars × Command)
  documents : List (Nat × Word)
  traps : List (Nat × Chars)
  options : Chars
  name : Chars
  args : List Chars
  /-- The place of the next option among the arguments: the number of an argument, and how many of
  its letters are done if it is not finished. -/
  optionPlace : Nat × Option Nat
  /-- What local variables were outside the functions that are running, the innermost first. -/
  outside : List (List (Chars × Variable))
  loops : Nat
  line : Nat
  /-- The line that is read next. -/
  nextLine : Nat
  status : Nat
  /-- The status of the last command whose output was put in. -/
  outputStatus : Nat
  /-- The command that complaints are about. -/
  inCommand : Option Chars
  /-- The status of the last command that ran beside the script. -/
  aside : Option Nat
  /-- The texts that are read in place of some words. -/
  aliases : List (Chars × Chars)
  /-- The permissions that new files do not get. -/
  mask : Nat

/-- Why the rest of a script is not run: a fault, which has been reported; the end of the script, of
a function or of a loop; a signal. -/
inductive Jump where
  | failed (status : Nat)
  | exited (status : Nat)
  | returned (status : Nat)
  | broke (loops : Nat)
  | continued (loops : Nat)
  | killed (signal : Nat)
  deriving DecidableEq, Repr

abbrev Run := ExceptT Jump (StateM Machine)

def put {α β : Type} [DecidableEq α] (key : α) (value : β) : List (α × β) → List (α × β)
  | [] => [(key, value)]
  | (other, old) :: rest =>
    if other = key then (key, value) :: rest else (other, old) :: put key value rest

def remove {α β : Type} [DecidableEq α] (key : α) (entries : List (α × β)) : List (α × β) :=
  entries.filter (·.1 ≠ key)

/-- The number that stands for a whole script among programs that run. -/
def processNumber : Chars := "4711".toList

def asideNumber : Chars := "4712".toList

namespace Machine

def defaultSeparators : Chars := [' ', '\t', '\n']

/-- A script before it starts. The first three descriptors are open. -/
def start (name : Chars) (args : List Chars) (options : Chars) (input : Chars)
    (tree : FileTree) (values : List (Chars × Variable)) : Machine :=
  { channels := #[.ofText input, .ofText [], .ofText []]
    outlets := [(0, .source 0), (1, .sink 1), (2, .sink 2)]
    tree, values, functions := [], documents := [], traps := [], options, name, args
    optionPlace := (1, none), outside := [], loops := 0, line := 1, nextLine := 1, status := 0
    outputStatus := 0, inCommand := none, aside := none, aliases := [], mask := 0o22 }

def givenVariables : List (Chars × Variable) :=
  let exported (name value : String) : Chars × Variable :=
    (name.toList, { value := some value.toList, isExported := true, isReadOnly := false })
  let own (name value : String) : Chars × Variable :=
    (name.toList, { value := some value.toList, isExported := false, isReadOnly := false })
  [own "IFS" " \t\n", own "OPTIND" "1", own "PS1" "# ", own "PS2" "> ", own "PS4" "+ ",
    exported "HOME" "/root",
    exported "PATH" "/usr/local/sbin:/usr/local/bin:/usr/sbin:/usr/bin:/sbin:/bin"]

def dirVariable : Chars := "PWD".toList

def optionLetters : Chars := "upbaCEVvxsnmiIfe".toList

def optionNames : List (String × Option Char) :=
  [("errexit", some 'e'), ("noglob", some 'f'), ("ignoreeof", some 'I'), ("interactive", some 'i'),
    ("monitor", some 'm'), ("noexec", some 'n'), ("stdin", some 's'), ("xtrace", some 'x'),
    ("verbose", some 'v'), ("vi", some 'V'), ("emacs", some 'E'), ("noclobber", some 'C'),
    ("allexport", some 'a'), ("notify", some 'b'), ("nounset", some 'u'), ("privileged", some 'p'),
    ("nolog", none), ("debug", none)]

def setOption (machine : Machine) (turnsOn : Bool) (letter : Char) : Machine :=
  let others := machine.options.filter (· ≠ letter)
  let chosen := if turnsOn then letter :: others else others
  { machine with options := optionLetters.filter chosen.contains }

def hasOption (machine : Machine) (letter : Char) : Bool :=
  machine.options.contains letter

def lookup (machine : Machine) (name : Chars) : Variable :=
  (machine.values.lookup name).getD .unset

def value? (machine : Machine) (name : Chars) : Option Chars :=
  (machine.lookup name).value

def separators (machine : Machine) : Chars :=
  (machine.value? "IFS".toList).getD defaultSeparators

def joint (machine : Machine) : Chars :=
  match machine.value? "IFS".toList with
  | some separators => separators.take 1
  | none => [' ']

def channel (machine : Machine) (number : Nat) : Chars :=
  (machine.channels[number]?.map Channel.text).getD []

def setChannel (machine : Machine) (number : Nat) (text : Chars) : Machine :=
  { machine with channels := machine.channels.setIfInBounds number (.ofText text) }

def openChannel (machine : Machine) (text : Chars) : Nat × Machine :=
  (machine.channels.size, { machine with channels := machine.channels.push (.ofText text) })

def outlet? (machine : Machine) (descriptor : Nat) : Option Outlet :=
  machine.outlets.lookup descriptor

def write? (machine : Machine) (outlet : Option Outlet) (text : Chars) : Option Machine :=
  match outlet with
  | some (.sink number) =>
    some { machine with channels := machine.channels.modify number (·.write text) }
  | some (.file place) =>
    let before := match machine.tree.item? place with
      | some (.file content) => content.bytes
      | _ => []
    some { machine with
      tree := machine.tree.put place (.file (.ofBytes (before ++ bytesOf text))) }
  | some (.device device) => if device.writeFault?.isNone then some machine else none
  | _ => none

def writeFault? (machine : Machine) (descriptor : Nat) : Option String :=
  match machine.outlet? descriptor with
  | some (.sink _) | some (.file _) => none
  | some (.device device) => device.writeFault?
  | _ => some "Bad file descriptor"

def readFault? (machine : Machine) (descriptor : Nat) : Option String :=
  match machine.outlet? descriptor with
  | some (.source _) | some (.device _) => none
  | some .directory => some (FileFault.reason .isDirectory)
  | _ => some "Bad file descriptor"

def readable (machine : Machine) (descriptor : Nat) : Chars :=
  match machine.outlet? descriptor with
  | some (.source number) => machine.channel number
  | some (.device device) => device.content
  | _ => []

/-- Leaves only a part of what was left to read. -/
def leave (machine : Machine) (descriptor : Nat) (rest : Chars) : Machine :=
  match machine.outlet? descriptor with
  | some (.source number) => machine.setChannel number rest
  | _ => machine

/-- What sort of thing a descriptor leads to. -/
def outletKind (machine : Machine) : Outlet → Condition.FileKind
  | .source _ | .sink _ => .pipe
  | .device _ => .device
  | .directory => .directory
  | .file place =>
    match machine.tree.item? place with
    | some (.file content) => .regular content.bytes.length
    | _ => .regular 0

def fileKind? (machine : Machine) (path : Chars) : Option Condition.FileKind :=
  match System.descriptor? path with
  | some descriptor => (machine.outlet? descriptor).map machine.outletKind
  | none =>
    if (System.device? path).isSome then some .device
    else if System.isTool path then some .executable
    else
      match machine.tree.find (System.pathOf path) with
      | .ok .directory => some .directory
      | .ok (.file content) => some (.regular content.bytes.length)
      | .error _ => none

def dir (machine : Machine) : Chars :=
  charsOf (Path.fromRoot machine.tree.home)

/-- Whether two paths lead to the same thing. -/
def isSame (machine : Machine) (a b : Chars) : Bool :=
  let place? (path : Chars) : Option Place :=
    (machine.tree.locate (System.pathOf path)).toOption
  (machine.fileKind? a).isSome && (machine.fileKind? b).isSome &&
    (a = b || (place? a = place? b && (place? a).any fun place => (machine.tree.item? place).isSome))

def isDirectory (machine : Machine) (path : Chars) : Bool :=
  machine.tree.isDirectory (System.pathOf path)

def scriptAt? (machine : Machine) (path : Chars) : Option Chars :=
  if machine.isDirectory path then some []
  else
    match System.descriptor? path with
    | some descriptor => some (machine.readable descriptor)
    | none => (System.read machine.tree path).toOption

end Machine

namespace Run

/-- Runs something and then puts back what is to be kept from before, also after a jump. -/
def keeping {α : Type} (restore : (before after : Machine) → Machine) (body : Run α) : Run α :=
  ExceptT.mk fun before =>
    let (result, after) := body.run.run before
    (result, restore before after)

def caught {α : Type} (body : Run α) : Run (Except Jump α) :=
  ExceptT.mk fun machine =>
    let (result, after) := body.run.run machine
    (.ok result, after)

def write (descriptor : Nat) (text : Chars) : Run Bool := do
  let machine ← get
  match machine.write? (machine.outlet? descriptor) text with
  | some after =>
    set after
    return true
  | none => return false

/-- Reports something with the line to which it belongs. -/
def report (message : Chars) : Run Unit := do
  let machine ← get
  let about := match machine.inCommand with
    | some name => name ++ [':', ' ']
    | none => []
  discard <| write 2
    (machine.name ++ ": ".toList ++ (toString machine.line).toList ++ ": ".toList ++ about ++
      message ++ ['\n'])

def fail {α : Type} (message : Chars) : Run α := do
  report message
  throw (.failed 2)

def print (text : Chars) : Run Nat := do
  if text = [] then return 0
  else if ← write 1 text then return 0
  else
    let machine ← get
    report (machine.inCommand.getD [] ++ ": I/O error".toList)
    return 1

def number (text : Chars) : Run Nat :=
  match Numeral.whole? true text with
  | some value => if value < 0 then bad else return value.toNat
  | none => bad
where
  bad : Run Nat := fail ("Illegal number: ".toList ++ text)

def optionVariable : Chars := "OPTIND".toList

def assign (name value : Chars) : Run Unit := do
  let machine ← get
  let old := machine.lookup name
  if old.isReadOnly then fail (name ++ ": is read only".toList)
  let isExported := old.isExported || machine.hasOption 'a'
  set { machine with
    values := put name { old with value := some value, isExported } machine.values }
  if name = optionVariable then
    let place ← number value
    modify fun machine => { machine with optionPlace := (max place 1, none) }

end Run

end CallFlow.Layout.Script
