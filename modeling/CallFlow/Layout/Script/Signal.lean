import CallFlow.Layout.Script.Numeral

namespace CallFlow.Layout.Script.Signal

def last : Nat := 64

/-- The signals from here on have no names but their places from the first or the last of them. -/
def firstRanked : Nat := 34

def name (signal : Nat) : Chars :=
  if signal = 0 then "EXIT".toList
  else if signal < firstRanked then
    match signals.find? fun (name, number) => number = signal && name ≠ "STKFLT" with
    | some (name, _) => name.toList
    | none => digits signal
  else if signal = firstRanked then "RTMIN".toList
  else if signal < 50 then "RTMIN+".toList ++ digits (signal - firstRanked)
  else if signal < last then "RTMAX-".toList ++ digits (last - signal)
  else "RTMAX".toList
where
  digits (number : Nat) : Chars := (toString number).toList

/-- The signal of a name, in which small and capital letters are the same, or of a number. -/
def ofText? (text : Chars) : Option Nat :=
  if text ≠ [] && text.all Char.isDigit then
    let number := ofDigits 10 text
    if number ≤ last then some number else none
  else (List.range (last + 1)).find? (name · = text.map Char.toUpper)

/-- The signals that are ignored unless a script says otherwise. -/
def harmless : List Nat := [17, 18, 23, 28]

def endMessage? (signal : Nat) : Option String :=
  if signal = 2 || signal = 13 then none
  else if firstRanked ≤ signal then
    some ("Real-time signal " ++ toString (signal - firstRanked))
  else
    some (([(1, "Hangup"), (3, "Quit"), (4, "Illegal instruction"), (5, "Trace/breakpoint trap"),
      (6, "Aborted"), (7, "Bus error"), (8, "Floating point exception"), (9, "Killed"),
      (10, "User defined signal 1"), (11, "Segmentation fault"), (12, "User defined signal 2"),
      (14, "Alarm clock"), (15, "Terminated"), (16, "Stack fault"),
      (24, "CPU time limit exceeded"), (25, "File size limit exceeded"),
      (26, "Virtual timer expired"), (27, "Profiling timer expired"), (29, "I/O possible"),
      (30, "Power failure"), (31, "Bad system call")].lookup signal).getD
        ("Unknown signal " ++ toString signal))

end CallFlow.Layout.Script.Signal
