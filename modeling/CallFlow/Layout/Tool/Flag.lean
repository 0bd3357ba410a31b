import CallFlow.Layout.System

namespace CallFlow.Layout.Tool

/-- What a tool can be told. A long name, if there is one, may be cut short as long as it can be told
apart. -/
structure Flag where
  letter : Char
  long? : Option String
  takesValue : Bool
  deriving DecidableEq, Repr

namespace Flag

def switch (letter : Char) (long? : Option String) : Flag :=
  { letter, long?, takesValue := false }

def setting (letter : Char) (long? : Option String) : Flag :=
  { letter, long?, takesValue := true }

def goesBy (flag : Flag) (name : Chars) : Bool :=
  flag.long?.any fun long => name.isPrefixOf long.toList

end Flag

inductive FlagFault where
  | unknownLetter (letter : Char)
  | unknownName (name : Chars)
  | ambiguous (name : Chars) (candidates : List String)
  | needlessValue (name : String)
  | letterWithoutValue (letter : Char)
  | nameWithoutValue (name : String)
  deriving DecidableEq, Repr

def FlagFault.message : FlagFault → Chars
  | unknownLetter letter => "invalid option -- '".toList ++ [letter, '\'']
  | unknownName name => "unrecognized option '--".toList ++ name ++ ['\'']
  | ambiguous name candidates =>
    "option '--".toList ++ name ++ "' is ambiguous; possibilities:".toList ++
      candidates.flatMap fun candidate => " '--".toList ++ candidate.toList ++ ['\'']
  | needlessValue name => "option '--".toList ++ name.toList ++ "' doesn't allow an argument".toList
  | letterWithoutValue letter => "option requires an argument -- '".toList ++ [letter, '\'']
  | nameWithoutValue name => "option '--".toList ++ name.toList ++ "' requires an argument".toList

structure Told where
  flags : List (Char × Chars)
  operands : List Chars
  deriving DecidableEq, Repr

namespace Told

def has (told : Told) (letter : Char) : Bool :=
  told.flags.any (·.1 = letter)

def value? (told : Told) (letter : Char) : Option Chars :=
  (told.flags.reverse.find? (·.1 = letter)).map (·.2)

def withFlag (told : Told) (letter : Char) (value : Chars) : Told :=
  { told with flags := (letter, value) :: told.flags }

def withOperand (told : Told) (operand : Chars) : Told :=
  { told with operands := operand :: told.operands }

end Told

def flagNamed (flags : List Flag) (name : Chars) : Except FlagFault Flag :=
  match flags.find? (·.long? = some (String.ofList name)) with
  | some flag => .ok flag
  | none =>
    match flags.filter (·.goesBy name) with
    | [] => .error (.unknownName name)
    | [flag] => .ok flag
    | several => .error (.ambiguous name (several.filterMap (·.long?)))

/-- The flags in one argument, with what is left of it as the value of the last one. -/
def lettersOf (flags : List Flag) : Chars → Except FlagFault (List (Char × Chars) × Option Char)
  | [] => .ok ([], none)
  | letter :: rest =>
    match flags.find? (·.letter = letter) with
    | none => .error (.unknownLetter letter)
    | some flag =>
      if flag.takesValue then
        if rest = [] then .ok ([], some letter) else .ok ([(letter, rest)], none)
      else (lettersOf flags rest).map fun (told, open?) => ((letter, []) :: told, open?)

/-- Reads arguments from left to right; the first fault ends the reading. -/
def tell (flags : List Flag) : List Chars → Except FlagFault Told
  | [] => .ok { flags := [], operands := [] }
  | ['-', '-'] :: rest => .ok { flags := [], operands := rest }
  | ('-' :: '-' :: body) :: rest => do
    let name := body.takeWhile (· ≠ '=')
    let flag ← flagNamed flags name
    match flag.takesValue, body.drop name.length, rest with
    | false, [], rest => return (← tell flags rest).withFlag flag.letter []
    | false, _, _ => throw (.needlessValue (flag.long?.getD ""))
    | true, _ :: value, rest => return (← tell flags rest).withFlag flag.letter value
    | true, [], value :: rest => return (← tell flags rest).withFlag flag.letter value
    | true, [], [] => throw (.nameWithoutValue (flag.long?.getD ""))
  | ('-' :: letter :: more) :: rest => do
    let (told, open?) ← lettersOf flags (letter :: more)
    let after ← match open?, rest with
      | none, rest => tell flags rest
      | some last, value :: rest => (tell flags rest).map (·.withFlag last value)
      | some last, [] => throw (.letterWithoutValue last)
    return { after with flags := told ++ after.flags }
  | operand :: rest => (tell flags rest).map (·.withOperand operand)

end CallFlow.Layout.Tool

namespace CallFlow.Layout.Call

def complaint (call : Call) (message : Chars) : Chars :=
  call.name ++ ": ".toList ++ message ++ ['\n']

/-- Refuses to work, and says why. -/
def fail (call : Call) (message : Chars) : Outcome :=
  Outcome.refusing (call.complaint message) 1 call

/-- Refuses to work, says why, and names the help that there is. -/
def failWithHelp (call : Call) (message : Chars) (status : Nat) : Outcome :=
  Outcome.refusing
    (call.complaint message ++ "Try '".toList ++ call.name ++
      " --help' for more information.\n".toList) status call

def refuse (call : Call) (fault : Tool.FlagFault) : Outcome :=
  call.failWithHelp fault.message 1

def shown (name : Chars) : Chars :=
  let isPlain (c : Char) : Bool := c.isAlphanum || "%+,-./:@_".toList.contains c
  if name ≠ [] && name.all isPlain then name else '\'' :: name ++ ['\'']

/-- A dash stands for what is fed. -/
def isFed (name : Chars) : Bool :=
  name = ['-'] || name = "/dev/stdin".toList

/-- A text that is read from a file, or why it cannot be read. -/
structure Text where
  name : Chars
  content : Except String Chars

/-- What is fed, unless that cannot be read. -/
def whatIsFed (call : Call) (fed : Chars) : Except String Chars :=
  match call.inputFault with
  | some reason => .error reason
  | none => .ok fed

/-- Why a descriptor that leads nowhere can be neither read from nor written to. -/
def closed : String := "Bad file descriptor"

/-- Tools that were to read what is fed complain at their end if that leads nowhere. -/
def closingComplaint (call : Call) (names : List Chars) (what : String) : Chars :=
  if call.inputFault = some closed && (names = [] || names.any isFed) then
    call.complaint (what.toList ++ ": ".toList ++ closed.toList)
  else []

def spelled (name : Chars) : Chars :=
  if name = ['-'] then "standard input".toList else name

def textsFrom (call : Call) : (fed : Chars) → List Chars → List Text
  | _, [] => []
  | fed, name :: rest =>
    if isFed name then { name, content := whatIsFed call fed } :: textsFrom call [] rest
    else { name, content := call.read name } :: textsFrom call fed rest

def texts (call : Call) (names : List Chars) : List Text :=
  textsFrom call call.input (if names = [] then [['-']] else names)

def leftBehind (call : Call) (names : List Chars) : Chars :=
  if names = [] || names.any isFed then [] else call.input

end CallFlow.Layout.Call
