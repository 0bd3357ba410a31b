import CallFlow.Toml.Scan

namespace CallFlow.Toml.Reader

def isHexDigit (c : Char) : Bool :=
  c.isDigit || ('a' ≤ c.toLower && c.toLower ≤ 'f')

def hexValue (digits : List Char) : Nat :=
  digits.foldl
    (fun value c =>
      16 * value + if c.isDigit then c.toNat - '0'.toNat else c.toLower.toNat - 'a'.toNat + 10)
    0

/-- The character with the number that so many hexadecimal digits write. -/
def codePoint (length : Nat) : Reader Char := do
  let digits := (← get).take length
  advance length
  let value := hexValue digits
  if digits.length = length && digits.all isHexDigit && value.isValidChar then
    return Char.ofNat value
  else failure

def escaped : Reader Char := do
  match ← next with
  | 'b' => return Char.ofNat 0x8
  | 't' => return '\t'
  | 'n' => return '\n'
  | 'f' => return Char.ofNat 0xC
  | 'r' => return '\r'
  | '"' => return '"'
  | '\\' => return '\\'
  | 'u' => codePoint 4
  | 'U' => codePoint 8
  | _ => failure

def isBasic (c : Char) : Bool :=
  isPlain c && c ≠ '"' && c ≠ '\\'

def isLiteral (c : Char) : Bool :=
  isPlain c && c ≠ '\''

def basicString : Reader String := do
  expect "\""
  let chars ← loop [] fun before => do
    let before := before ++ (← takeWhile isBasic)
    match ← next with
    | '"' => return .done before
    | '\\' => return .again (before ++ [← escaped])
    | _ => failure
  return String.ofList chars

def literalString : Reader String := do
  expect "'"
  let chars ← takeWhile isLiteral
  expect "'"
  return String.ofList chars

/-- The mark that ends a string on several lines, with up to two more that belong to the string. -/
def closing (mark : Char) : Reader (Option (List Char)) := do
  let marks := (← get).takeWhile (· = mark)
  if marks.length < 3 then return none
  else
    let extra := marks.length - 3
    if extra > 2 then failure
    advance marks.length
    return some (List.replicate extra mark)

/-- A backslash at the end of a line takes the blanks that follow with it. -/
def continuation : Reader Bool := do
  let before ← get
  skipSpaces
  if ← acceptNewline then
    loop () fun _ => do
      skipSpaces
      return if ← acceptNewline then .again () else .done ()
    return true
  else
    set before
    return false

def longBasicString : Reader String := do
  expect "\"\"\""
  discard acceptNewline
  let chars ← loop [] fun before => do
    let before := before ++ (← takeWhile isBasic)
    if ← acceptNewline then return .again (before ++ ['\n'])
    if let some extra ← closing '"' then return .done (before ++ extra)
    match ← next with
    | '"' => return .again (before ++ ['"'])
    | '\\' =>
      if ← continuation then return .again before else return .again (before ++ [← escaped])
    | _ => failure
  return String.ofList chars

def longLiteralString : Reader String := do
  expect "'''"
  discard acceptNewline
  let chars ← loop [] fun before => do
    let before := before ++ (← takeWhile isLiteral)
    if ← acceptNewline then return .again (before ++ ['\n'])
    if let some extra ← closing '\'' then return .done (before ++ extra)
    match ← next with
    | '\'' => return .again (before ++ ['\''])
    | _ => failure
  return String.ofList chars

def isBareKeyChar (c : Char) : Bool :=
  c.isAlphanum || c == '_' || c == '-'

def simpleKey : Reader String := do
  match ← peek? with
  | some '"' => basicString
  | some '\'' => literalString
  | _ =>
    let chars ← takeWhile isBareKeyChar
    if chars.isEmpty then failure else return String.ofList chars

def longestKey : Nat := 79

/-- A key, whose parts are separated by dots. -/
def key : Reader (List String) := do
  let keys ← loop [] fun before => do
    skipSpaces
    let keys := before ++ [← simpleKey]
    skipSpaces
    return if ← accept "." then .again keys else .done keys
  if keys.length ≤ longestKey then return keys else failure

end CallFlow.Toml.Reader
