import CallFlow.Layout.Script.Source

namespace CallFlow.Layout.Script

/-- Where a part of a word stands: on its own, between quotation marks, between the braces that
follow a name, in a text that a redirection feeds, or in a sum, inside so many parentheses. -/
inductive Ground where
  | bare
  | quotes
  | braces (inQuotes : Bool)
  | document
  | sum (depth : Nat)

namespace Ground

def isQuoted : Ground → Bool
  | bare | braces false => false
  | _ => true

/-- Whether a backslash takes the meaning of a character. Elsewhere it stands for itself. -/
def escapes (ground : Ground) (c : Char) : Bool :=
  match ground with
  | bare | braces false => true
  | braces true => "$\x60\"\\\x7d".toList.contains c
  | document => "$\x60\\".toList.contains c
  | _ => "$\x60\"\\".toList.contains c

def missing : Ground → Option String
  | bare | document => none
  | quotes | braces true => some "Unterminated quoted string"
  | braces false => some "Missing '\x7d'"
  | sum _ => some "Missing '))'"

end Ground

def endsWord (c : Char) : Bool :=
  " \t\n;&|<>()".toList.contains c

def addText (inQuotes : Bool) (chars : Chars) (parts : Word) : Word :=
  match inQuotes, parts.getLast? with
  | false, some (.plain text) => parts.dropLast ++ [.plain (text ++ chars)]
  | true, some (.quoted text) => parts.dropLast ++ [.quoted (text ++ chars)]
  | false, _ => parts ++ [.plain chars]
  | true, _ => parts ++ [.quoted chars]

def addChar (inQuotes : Bool) (c : Char) (parts : Word) : Word :=
  addText inQuotes [c] parts

/-- Whether a character stands for itself wherever it is met. -/
def isOrdinary (c : Char) : Bool :=
  !endsWord c && !"\\$\x60\"'\x7d".toList.contains c

/-- What follows a name between braces: nothing, a word, or something unknown. -/
inductive Operator where
  | closed (use : Use)
  | word (use : Word → Use)
  | pattern (use : Word → Use)
  | unknown

namespace Reader

/-- Reads what is made of a value, after its name. -/
def operator : Reader Operator := do
  match ← takeMark with
  | some ':' => colon
  | some '%' => return .pattern (Use.cutEnd (← accept '%'))
  | some '#' => return .pattern (Use.cutStart (← accept '#'))
  | some c => return choice false c
  | none => return .unknown
where
  choice (emptyToo : Bool) (c : Char) : Operator :=
    match c with
    | '\x7d' => .closed .whole
    | '-' => .word (Use.orElse emptyToo)
    | '=' => .word (Use.orAssign emptyToo)
    | '?' => .word (Use.orFail emptyToo)
    | '+' => .word (Use.andThen emptyToo)
    | _ => .unknown
  colon : Reader Operator := do
    match ← takeMark with
    | some '\x7d' => return .unknown
    | some c => return choice true c
    | none => return .unknown

def lengthOf (name : Chars) : Reader (Chars × Operator) := do
  if ← accept '\x7d' then return (name, .closed .length) else return (name, .unknown)

def bracedName : Reader (Chars × Operator) := do
  match ← peek with
  | none => return ([], .unknown)
  | some c =>
    if isNameStart c then return (← takeWhile isNameChar, ← operator)
    else if c.isDigit then return (← takeWhile Char.isDigit, ← operator)
    else if c = '\x7d' then return ([], .unknown)
    else
      discard takeMark
      let next ← peek
      if c ≠ '#' then
        if isSpecial c then return ([c], ← operator) else return ([], .unknown)
      else if next.any Char.isDigit then lengthOf (← takeWhile Char.isDigit)
      else if next.any isNameStart then lengthOf (← takeWhile isNameChar)
      else if next ≠ some '\x7d' && (← get).rest[1]? = some '\x7d' then
        discard takeRaw
        if next.any isSpecial then lengthOf next.toList else return ([], .unknown)
      else return (['#'], ← operator)

/-- The text of commands between grave accents, in which a backslash takes the meaning of some
characters, with what follows it and the line of that. -/
def accented (inQuotes : Bool) : Chars → Nat → Option (Chars × Chars × Nat)
  | [], _ => none
  | '\x60' :: rest, line => some ([], rest, line)
  | '\\' :: '\n' :: rest, line => accented inQuotes rest (line + 1)
  | '\\' :: c :: rest, line =>
    (accented inQuotes rest line).map fun (text, left) =>
      (if "\\\x60$".toList.contains c || (inQuotes && c = '"') then c :: text
        else '\\' :: c :: text, left)
  | c :: rest, line =>
    (accented inQuotes rest (if c = '\n' then line + 1 else line)).map fun (text, left) =>
      (c :: text, left)

def apostrophes : Reader Chars := do
  let source ← get
  let text := source.rest.takeWhile (· ≠ '\'')
  let line := source.line + text.count '\n'
  set { source with rest := source.rest.drop (text.length + 1), line }
  if text.length < source.rest.length then return text else complain "Unterminated quoted string"

/-- Reads commands whose output is put in, between parentheses (if `closed`) or up to the end. -/
abbrev Nested := (closed : Bool) → Reader (List Command)

def accentedOutput (nested : Nested) (inQuotes : Bool) : Reader Part := do
  let source ← get
  match accented inQuotes source.rest source.line with
  | none =>
    set { source with rest := [], line := source.line + source.rest.count '\n' }
    complain "EOF in backquote substitution"
  | some (text, rest, line) =>
    set { source with rest, line }
    return .output inQuotes (← within text 1 (nested false))

/-- Reads parts of a word up to their end. The number bounds the characters that are left. -/
def partsWithin (nested : Nested) : Nat → Ground → Word → Reader Word
  | 0, _, _ => complain "Unterminated quoted string"
  | bound + 1, ground, before => do
    let go := partsWithin nested bound
    let literal (c : Char) : Reader Word := do
      discard takeRaw
      go ground (addChar ground.isQuoted c before)
    let run := (← get).rest.takeWhile isOrdinary
    if !run.isEmpty then
      modify fun source => { source with rest := source.rest.drop run.length }
      return ← go ground (addText ground.isQuoted run before)
    match ← peek with
    | none =>
      match ground.missing with
      | none => return before
      | some message => complain message
    | some '\\' =>
      discard takeRaw
      match ← takeRaw with
      | none => return addChar true '\\' before
      | some c =>
        if ground.escapes c then go ground (addChar true c before)
        else go ground (addChar true c (addChar true '\\' before))
    | some '$' =>
      discard takeRaw
      go ground (← value go ground.isQuoted before)
    | some '\x60' =>
      discard takeRaw
      go ground (before ++ [← accentedOutput nested ground.isQuoted])
    | some c =>
      match ground, c with
      | .bare, '\'' | .braces false, '\'' =>
        discard takeRaw
        go ground (before ++ [.quoted (← apostrophes)])
      | .quotes, '"' | .braces _, '\x7d' =>
        discard takeRaw
        return before
      | .bare, '"' | .braces _, '"' =>
        discard takeRaw
        go ground (before ++ .quoted [] :: (← go .quotes []))
      | .sum depth, '(' =>
        discard takeRaw
        go (.sum (depth + 1)) (addChar true c before)
      | .sum (depth + 1), ')' =>
        discard takeRaw
        go (.sum depth) (addChar true c before)
      | .sum 0, ')' =>
        discard takeRaw
        if ← accept ')' then return before else go ground (addChar true c before)
      | .bare, c => if endsWord c then return before else literal c
      | _, c => literal c
where
  /-- Reads what a dollar sign puts in, if anything. -/
  value (go : Ground → Word → Reader Word) (inQuotes : Bool) (before : Word) : Reader Word := do
    match ← peek with
    | some '(' =>
      discard takeRaw
      if ← accept '(' then return before ++ [.sum inQuotes (← go (.sum 0) [])]
      else return before ++ [.output inQuotes (← nested true)]
    | some '\x7b' =>
      discard takeRaw
      let (name, operator) ← bracedName
      let use ← match operator with
        | .closed use => pure use
        | .word use => pure (use (← go (.braces inQuotes) []))
        | .pattern use => pure (use (← go (.braces false) []))
        | .unknown => do
          discard <| go (.braces inQuotes) []
          pure Use.unknown
      return before ++ [.value inQuotes name use]
    | some c =>
      if isNameStart c then return before ++ [.value inQuotes (← takeWhile isNameChar) .whole]
      else if isSpecial c then
        discard takeRaw
        return before ++ [.value inQuotes [c] .whole]
      else return addChar inQuotes '$' before
    | none => return addChar inQuotes '$' before

def parts (nested : Nested) (ground : Ground) : Reader Word := do
  partsWithin nested ((← get).rest.length + 1) ground []

end Reader

end CallFlow.Layout.Script
