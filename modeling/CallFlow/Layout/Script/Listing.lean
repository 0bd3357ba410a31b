import CallFlow.Layout.Script.Machine
import CallFlow.Layout.Script.Signal

namespace CallFlow.Layout.Script.Listing

/-- A text between apostrophes, the apostrophes in it between quotation marks. The number bounds the
characters that are left. -/
def quotedWithin : Nat → Chars → Chars
  | 0, _ => []
  | bound + 1, text =>
    let plain := text.takeWhile (· ≠ '\'')
    let marks := (text.drop plain.length).takeWhile (· = '\'')
    let rest := text.drop (plain.length + marks.length)
    '\'' :: plain ++ ['\''] ++ (if marks = [] then [] else '"' :: marks ++ ['"']) ++
      if rest = [] then [] else quotedWithin bound rest

def quoted (text : Chars) : Chars :=
  quotedWithin (text.length + 1) text

def setting (name value : Chars) : Chars :=
  name ++ '=' :: quoted value

def values (command : Chars) (shown : List (Chars × Variable)) : Chars :=
  (shown.mergeSort fun (a, _) (b, _) => notAfter a b).flatMap fun (name, held) =>
    command ++ ' ' :: (match held.value with
      | some value => setting name value
      | none => name) ++ ['\n']

def traps (shown : List (Nat × Chars)) : Chars :=
  (shown.mergeSort fun (a, _) (b, _) => a ≤ b).flatMap fun (signal, action) =>
    "trap -- ".toList ++ quoted action ++ ' ' :: Signal.name signal ++ ['\n']

def signals : Chars :=
  "0\n".toList ++ (List.range Signal.last).flatMap fun before => Signal.name (before + 1) ++ ['\n']

/-- The place of an alias among others: they lie in so many rows, by the characters of their names. -/
def row (name : Chars) : Nat :=
  let codes := name.map Char.toNat
  ((codes.headD 0) * 16 + codes.foldl (· + ·) 0) % 39

def aliases (shown : List (Chars × Chars)) : Chars :=
  (shown.mergeSort fun (a, _) (b, _) => row a ≤ row b).flatMap fun (name, text) =>
    setting name text ++ ['\n']

def optionTable (machine : Machine) : Chars :=
  "Current option settings\n".toList ++ Machine.optionNames.flatMap fun (name, letter?) =>
    name.toList ++ List.replicate (16 - name.length) ' ' ++
      (if letter?.any machine.hasOption then "on\n" else "off\n").toList

def optionCommands (machine : Machine) : Chars :=
  Machine.optionNames.flatMap fun (name, letter?) =>
    (if letter?.any machine.hasOption then "set -o " else "set +o ").toList ++ name.toList ++ ['\n']

end CallFlow.Layout.Script.Listing
