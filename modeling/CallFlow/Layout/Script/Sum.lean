import CallFlow.Layout.Script.Numeral
import CallFlow.Layout.Script.Syntax

namespace CallFlow.Layout.Script.Sum

inductive SumToken where
  | number (value : Int64)
  | name (text : Chars)
  | sign (text : String)
  | strange
  deriving DecidableEq

def signs : List String :=
  ["<<=", ">>=", "<=", ">=", "<<", ">>", "<", ">", "==", "=", "!=", "!", "&&", "&=", "&", "||", "|=",
    "|", "^=", "^", "*=", "*", "/=", "/", "%=", "%", "+=", "+", "-=", "-", "~", "(", ")", "?", ":"]

def firstToken (chars : Chars) : SumToken × Chars :=
  match Numeral.unsigned chars with
  | some (magnitude, rest) =>
    (.number (Int64.ofInt ({ isNegative := false, magnitude, rest } : Numeral).signed.1), rest)
  | none =>
    if chars.head?.any isNameStart then
      let name := chars.takeWhile isNameChar
      (.name name, chars.drop name.length)
    else
      match signs.find? fun sign => sign.toList.isPrefixOf chars with
      | some sign => (.sign sign, chars.drop sign.length)
      | none => (.strange, chars.tail)

/-- The tokens of a text. The number bounds the characters that are left. -/
def tokensWithin : Nat → Chars → List SumToken
  | 0, _ => []
  | bound + 1, chars =>
    match chars.dropWhile fun c => c = ' ' || c = '\t' || c = '\n' with
    | [] => []
    | chars =>
      let (token, rest) := firstToken chars
      token :: tokensWithin bound rest

inductive SumFault where
  | expected (what : String)
  | divisionByZero
  | notNumber (text : Chars)
  deriving DecidableEq, Repr

def SumFault.message (expression : Chars) : SumFault → Chars
  | expected what => about ("expecting " ++ what)
  | divisionByZero => about "division by zero"
  | notNumber text => "Illegal number: ".toList ++ text
where
  about (text : String) : Chars :=
    ("arithmetic expression: " ++ text ++ ": \"").toList ++ expression ++ ['"']

/-- An expression that is being read: its tokens that are left, and the values given to names. -/
structure Sheet where
  tokens : List SumToken
  given : List (Chars × Int64)

abbrev Calculation := StateT Sheet (Except SumFault)

def peek : Calculation (Option SumToken) :=
  return (← get).tokens.head?

def advance : Calculation Unit :=
  modify fun sheet => { sheet with tokens := sheet.tokens.tail }

def accept (sign : String) : Calculation Bool := do
  if (← peek) = some (.sign sign) then
    advance
    return true
  else return false

/-- The value of a name: the one given last, or the number that stands for it outside. Nothing at
all is zero. -/
def valueOf (outside : Chars → Chars) (name : Chars) : Calculation Int64 := do
  match (← get).given.lookup name with
  | some value => return value
  | none =>
    let text := outside name
    match Numeral.whole? false text with
    | some value => return Int64.ofInt value
    | none => if text.all isSpace then return 0 else throw (.notNumber text)

/-- How closely the operators bind that have a value on each side: the less, the closer. -/
def rank? : String → Option Nat
  | "*" | "/" | "%" => some 0
  | "+" | "-" => some 1
  | "<<" | ">>" => some 2
  | "<" | ">" | "<=" | ">=" => some 3
  | "==" | "!=" => some 4
  | "&" => some 5
  | "^" => some 6
  | "|" => some 7
  | _ => none

def lastRank : Nat := 8

def truth (holds : Bool) : Int64 :=
  if holds then 1 else 0

def apply (operator : String) (a b : Int64) : Calculation Int64 :=
  match operator with
  | "*" => return a * b
  | "/" => if b = 0 then throw .divisionByZero else return a / b
  | "%" => if b = 0 then throw .divisionByZero else return a % b
  | "+" => return a + b
  | "-" => return a - b
  | "<<" => return a <<< b
  | ">>" => return a >>> b
  | "<" => return truth (a < b)
  | ">" => return truth (b < a)
  | "<=" => return truth (a ≤ b)
  | ">=" => return truth (b ≤ a)
  | "==" => return truth (a = b)
  | "!=" => return truth (a ≠ b)
  | "&" => return a &&& b
  | "^" => return a ^^^ b
  | _ => return a ||| b

/-- The operator of an assignment, which is empty where a value is only stored. -/
def assignment? (token : Option SumToken) : Option String :=
  match token with
  | some (.sign sign) =>
    if ["=", "*=", "/=", "%=", "+=", "-=", "<<=", ">>=", "&=", "^=", "|="].contains sign then
      some (String.ofList sign.toList.dropLast)
    else none
  | _ => none

mutual

/-- Reads a value with the signs before it. -/
def primary (outside : Chars → Chars) : Nat → (counts : Bool) → Calculation Int64
  | 0, _ => throw (.expected "primary")
  | bound + 1, counts => do
    let token ← peek
    advance
    match token with
    | some (.number value) => return value
    | some (.name name) => if counts then valueOf outside name else return 0
    | some (.sign "(") =>
      let value ← assignment outside bound counts
      if ← accept ")" then return value else throw (.expected "')'")
    | some (.sign "+") => primary outside bound counts
    | some (.sign "-") => return -(← primary outside bound counts)
    | some (.sign "!") => return truth ((← primary outside bound counts) = 0)
    | some (.sign "~") => return ~~~(← primary outside bound counts)
    | _ => throw (.expected "primary")

/-- Reads the operators that bind closer than a rank, and what they are applied to. -/
def binaryRest (outside : Chars → Chars) : Nat → (counts : Bool) → (rank : Nat) → Int64 →
    Calculation Int64
  | 0, _, _, value => return value
  | bound + 1, counts, rank, value => do
    match ← peek with
    | some (.sign sign) =>
      match rank? sign with
      | some closer =>
        if closer < rank then
          advance
          let first ← primary outside bound counts
          let other ← binaryRest outside bound counts closer first
          let result ← if counts then apply sign value other else pure other
          binaryRest outside bound counts rank result
        else return value
      | none => return value
    | _ => return value

def conjunction (outside : Chars → Chars) : Nat → (counts : Bool) → Calculation Int64
  | 0, _ => throw (.expected "primary")
  | bound + 1, counts => do
    let first ← primary outside bound counts
    let left ← binaryRest outside bound counts lastRank first
    if ← accept "&&" then
      let right ← conjunction outside bound (counts && left ≠ 0)
      return truth (left ≠ 0 && right ≠ 0)
    else return left

def disjunction (outside : Chars → Chars) : Nat → (counts : Bool) → Calculation Int64
  | 0, _ => throw (.expected "primary")
  | bound + 1, counts => do
    let left ← conjunction outside bound counts
    if ← accept "||" then
      let right ← disjunction outside bound (counts && left = 0)
      return truth (left ≠ 0 || right ≠ 0)
    else return left

def choice (outside : Chars → Chars) : Nat → (counts : Bool) → Calculation Int64
  | 0, _ => throw (.expected "primary")
  | bound + 1, counts => do
    let test ← disjunction outside bound counts
    if ← accept "?" then
      let yes ← assignment outside bound (counts && test ≠ 0)
      if !(← accept ":") then throw (.expected "':'")
      let no ← choice outside bound (counts && test = 0)
      return if test ≠ 0 then yes else no
    else return test

def assignment (outside : Chars → Chars) : Nat → (counts : Bool) → Calculation Int64
  | 0, _ => throw (.expected "primary")
  | bound + 1, counts => do
    match (← get).tokens with
    | .name name :: rest =>
      match assignment? rest.head? with
      | some operator =>
        modify fun sheet => { sheet with tokens := rest.tail }
        let right ← assignment outside bound counts
        if !counts then return right
        let value ← if operator = "" then pure right
          else apply operator (← valueOf outside name) right
        modify fun sheet => { sheet with given := (name, value) :: sheet.given }
        return value
      | none => choice outside bound counts
    | _ => choice outside bound counts

end

def evaluate (outside : Chars → Chars) (expression : Chars) :
    Except SumFault (Int64 × List (Chars × Int64)) := do
  let tokens := tokensWithin expression.length expression
  let read : Calculation Int64 := do
    let value ← assignment outside (8 * (tokens.length + 2)) true
    if (← peek).isSome then throw (.expected "EOF")
    return value
  let (value, sheet) ← read.run { tokens, given := [] }
  return (value, sheet.given)

end CallFlow.Layout.Script.Sum
