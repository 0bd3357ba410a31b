import CallFlow.FileTree

namespace CallFlow.Layout

/-- What programs read and print: bytes, each as the character of its number. -/
abbrev Chars := List Char

/-- Whether a text comes no later than another one in the order of their characters. -/
def notAfter : Chars → Chars → Bool
  | [], _ => true
  | _ :: _, [] => false
  | a :: as, b :: bs => if a = b then notAfter as bs else a.toNat < b.toNat

def charsOfBytes (bytes : List UInt8) : Chars :=
  bytes.map fun byte => Char.ofNat byte.toNat

def charsOf (text : String) : Chars :=
  charsOfBytes text.toUTF8.toList

def bytesOf (chars : Chars) : List UInt8 :=
  chars.map fun c => UInt8.ofNat c.toNat

/-- The signals that have names, with their numbers. -/
def signals : List (String × Nat) :=
  [("HUP", 1), ("INT", 2), ("QUIT", 3), ("ILL", 4), ("TRAP", 5), ("ABRT", 6), ("BUS", 7),
    ("FPE", 8), ("KILL", 9), ("USR1", 10), ("SEGV", 11), ("USR2", 12), ("PIPE", 13), ("ALRM", 14),
    ("TERM", 15), ("STKFLT", 16), ("CHLD", 17), ("CONT", 18), ("STOP", 19), ("TSTP", 20),
    ("TTIN", 21), ("TTOU", 22), ("URG", 23), ("XCPU", 24), ("XFSZ", 25), ("VTALRM", 26),
    ("PROF", 27), ("WINCH", 28), ("IO", 29), ("PWR", 30), ("SYS", 31)]

/-- How a program ends: on its own with a status, or by a signal. -/
inductive Ending where
  | exited (status : Nat)
  | killed (signal : Nat)
  deriving DecidableEq, Repr

namespace Ending

def isSuccess (ending : Ending) : Bool :=
  ending = .exited 0

def status : Ending → Nat
  | exited status => status
  | killed signal => 128 + signal

def message : Ending → String
  | exited status => "exit status: " ++ toString status
  | killed signal =>
    match signals.find? (·.2 = signal) with
    | some (name, _) => "signal: " ++ toString signal ++ " (SIG" ++ name ++ ")"
    | none => "signal: " ++ toString signal

end Ending

/-- What a program is started with: the name it is called by, its arguments, what it is fed, and the
files that it sees. What is fed can be impossible to read, and what is printed to write; it can go to
a file. -/
structure Call where
  name : Chars
  args : List Chars
  input : Chars
  tree : FileTree
  inputFault : Option String := none
  outputFault : Option String := none
  aim? : Option Place := none

/-- What a program does: what it prints, how it ends, what it leaves unread, and the files as they are
afterwards if they have changed. -/
structure Outcome where
  output : Chars
  errors : Chars
  ending : Ending
  left : Chars
  tree? : Option FileTree := none
  deriving DecidableEq, Repr

abbrev Program := Call → Outcome

namespace Outcome

def printing (output : Chars) : Outcome :=
  { output, errors := [], ending := .exited 0, left := [] }

def refusing (message : Chars) (status : Nat) : Program := fun call =>
  { output := [], errors := message, ending := .exited status, left := call.input }

end Outcome

def Program.exitWith (status : Nat) : Program :=
  Outcome.refusing [] status

end CallFlow.Layout
