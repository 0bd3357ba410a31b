import CallFlow.Layout.Script.Numeral
import CallFlow.Layout.System

namespace CallFlow.Layout.Script.Condition

/-- What a name can lead to. -/
inductive FileKind where
  | directory
  | device
  | pipe
  | executable
  | regular (size : Nat)
  deriving DecidableEq, Repr

namespace FileKind

def isRegular : FileKind → Bool
  | regular _ | executable => true
  | _ => false

/-- Whether there is anything in it. -/
def holdsAny : FileKind → Bool
  | regular size => size > 0
  | directory | executable => true
  | device | pipe => false

end FileKind

/-- What can be asked about paths: what they lead to, and whether two lead to the same. -/
structure Sight where
  kind? : Chars → Option FileKind
  isSame : Chars → Chars → Bool

inductive Kind where
  | unary
  | binary
  | not
  | both
  | either
  | openParen
  | closeParen
  deriving DecidableEq, Repr

def unaryOperators : List String :=
  ["-r", "-w", "-x", "-e", "-f", "-d", "-c", "-b", "-p", "-u", "-g", "-k", "-s", "-t", "-z", "-n",
    "-h", "-O", "-G", "-L", "-S"]

def binaryOperators : List String :=
  ["=", "!=", "<", ">", "-eq", "-ne", "-ge", "-gt", "-le", "-lt", "-nt", "-ot", "-ef"]

/-- The meaning of a word as an operator. -/
def kind? (word : Chars) : Option Kind :=
  let text := String.ofList word
  if unaryOperators.contains text then some .unary
  else if binaryOperators.contains text then some .binary
  else
    match text with
    | "!" => some .not
    | "-a" => some .both
    | "-o" => some .either
    | "(" => some .openParen
    | ")" => some .closeParen
    | _ => none

inductive ConditionFault where
  | unexpectedOperator (word : Chars)
  | missingArgument (operator : Chars)
  | missingParen
  | missingBracket
  | notNumber (text : Chars)
  deriving DecidableEq, Repr

def ConditionFault.message : ConditionFault → Chars
  | unexpectedOperator word => about word "unexpected operator"
  | missingArgument operator => about operator "argument expected"
  | missingParen => "closing paren expected".toList
  | missingBracket => "missing ]".toList
  | notNumber text => "Illegal number: ".toList ++ text
where
  about (word : Chars) (text : String) : Chars :=
    (if word = [] then [] else word ++ ": ".toList) ++ text.toList

/-- The words of a condition from the present one on. -/
abbrev Checker := StateT (List Chars) (Except ConditionFault)

/-- The meaning of the first of some words, where it is an operator. One that takes an operand is
itself one if none follows, or if the operator that follows stands between two. -/
def lex : List Chars → Option Kind
  | [] => none
  | word :: rest =>
    match kind? word, rest with
    | some .unary, [] => none
    | some .unary, next :: _ :: _ => if kind? next = some .binary then none else some .unary
    | some .openParen, [] => none
    | found, _ => found

def lexNext : Checker (Option Kind) :=
  return lex (← get).tail

def advance : Checker Unit :=
  modify List.tail

def number (word : Chars) : Checker Int :=
  match Numeral.whole? true word with
  | some value => pure value
  | none => throw (.notNumber word)

/-- Asks one thing of an operand. -/
def ask (sight : Sight) (operator : String) (operand : Chars) : Checker Bool := do
  let file := sight.kind? operand
  match operator with
  | "-z" => return operand = []
  | "-n" => return operand ≠ []
  | "-t" =>
    discard (number operand)
    return false
  | "-d" => return file = some .directory
  | "-c" => return file = some .device
  | "-f" => return file.any FileKind.isRegular
  | "-s" => return file.any FileKind.holdsAny
  | "-e" | "-r" | "-w" | "-O" | "-G" => return file.isSome
  | "-x" => return file = some .directory || file = some .executable
  | "-p" => return file = some .pipe
  | "-h" | "-L" => return System.links.contains (System.pathOf operand)
  | "-k" => return System.sharedDirectories.contains (System.pathOf operand)
  | _ => return false

def compare (sight : Sight) (operator : String) (left right : Chars) :
    Checker Bool := do
  match operator with
  | "=" => return left = right
  | "!=" => return left ≠ right
  | "<" => return left < right
  | ">" => return right < left
  | "-ef" => return sight.isSame left right
  | "-nt" => return (sight.kind? left).isSome && (sight.kind? right).isNone
  | "-ot" => return (sight.kind? left).isNone && (sight.kind? right).isSome
  | _ =>
    let m ← number left
    let n ← number right
    match operator with
    | "-eq" => return m = n
    | "-ne" => return m ≠ n
    | "-ge" => return n ≤ m
    | "-gt" => return n < m
    | "-le" => return m ≤ n
    | _ => return m < n

mutual

/-- Checks alternatives; the meaning of the first word is known. -/
def alternatives (sight : Sight) : Nat → Option Kind → Checker Bool
  | 0, _ => return false
  | bound + 1, kind => do
    let holds ← conjuncts sight bound kind
    if (← lexNext) = some .either then
      advance
      advance
      let others ← alternatives sight bound (lex (← get))
      return holds || others
    else return holds

def conjuncts (sight : Sight) : Nat → Option Kind → Checker Bool
  | 0, _ => return false
  | bound + 1, kind => do
    let holds ← negation sight bound kind
    if (← lexNext) = some .both then
      advance
      advance
      let others ← conjuncts sight bound (lex (← get))
      return holds && others
    else return holds

def negation (sight : Sight) : Nat → Option Kind → Checker Bool
  | 0, _ => return false
  | bound + 1, kind => do
    if kind = some .not then
      if (← get).tail = [] then return true
      let next ← lexNext
      advance
      return !(← negation sight bound next)
    else simple sight bound kind

def simple (sight : Sight) : Nat → Option Kind → Checker Bool
  | 0, _ => return false
  | bound + 1, kind => do
    match ← get with
    | [] => return false
    | word :: rest =>
      match kind with
      | some .openParen =>
        advance
        let next := lex rest
        if next = some .closeParen then return false
        let holds ← alternatives sight bound next
        advance
        if lex (← get) ≠ some .closeParen then throw .missingParen
        return holds
      | some .unary =>
        advance
        match rest with
        | [] => throw (.missingArgument word)
        | operand :: _ => ask sight (String.ofList word) operand
      | _ =>
        match lex rest, rest with
        | some .binary, [operator] =>
          set [operator]
          throw (.missingArgument operator)
        | some .binary, operator :: operand :: more =>
          set (operand :: more)
          compare sight (String.ofList operator) word operand
        | _, _ => return word ≠ []

end

def checkAll (sight : Sight) (kind : Option Kind) (words : List Chars) :
    Except ConditionFault Bool := do
  let (holds, left) ← (alternatives sight (4 * words.length + 4) kind).run words
  match left with
  | word :: _ :: _ => throw (.unexpectedOperator word)
  | _ => return holds

/-- Whether the words are a condition that holds. Up to four words are understood by their number
first. The number bounds the words that are left. -/
def holdsWithin (sight : Sight) : Nat → List Chars → Except ConditionFault Bool
  | 0, _ => .ok false
  | _, [] => .ok false
  | bound + 1, first :: rest =>
    let words := first :: rest
    match rest with
    | [operator, _] =>
      if kind? operator = some .binary then checkAll sight none words
      else shortened bound first rest words
    | [_, _, _] => shortened bound first rest words
    | _ => checkAll sight (lex words) words
where
  shortened (bound : Nat) (first : Chars) (rest words : List Chars) : Except ConditionFault Bool :=
    if first = ['('] && rest.getLast? = some [')'] then
      checkAll sight (lex rest.dropLast) rest.dropLast
    else if first = ['!'] then (holdsWithin sight bound rest).map not
    else checkAll sight (lex words) words

def holds (sight : Sight) (inBrackets : Bool) (words : List Chars) :
    Except ConditionFault Bool :=
  if !inBrackets then holdsWithin sight words.length words
  else if words.getLast? = some [']'] then holdsWithin sight words.length words.dropLast
  else .error .missingBracket

end CallFlow.Layout.Script.Condition
