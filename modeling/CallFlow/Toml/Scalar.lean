import CallFlow.Toml.Text
import CallFlow.Toml.Value

namespace CallFlow.Toml.Scalar

def digits? (isDigit : Char → Bool) (chars : List Char) : Option (List Char) :=
  let parts := Text.pieces '_' chars
  if parts.all (fun part => !part.isEmpty && part.all isDigit) then some parts.flatten else none

def isDigitOf (base : Nat) (c : Char) : Bool :=
  if c.isDigit then c.toNat - '0'.toNat < base else base = 16 && Reader.isHexDigit c

def valueOf (base : Nat) (digits : List Char) : Nat :=
  digits.foldl (fun value c => base * value + Reader.hexValue [c]) 0

/-- Integers have 64 bits, one of them for the sign. This is the first number beyond them. -/
def integerBound : Int := 9223372036854775808

def bounded? (value : Int) : Option Value :=
  if -integerBound ≤ value && value < integerBound then some (.integer value) else none

def signed (chars : List Char) : Bool × List Char :=
  match chars with
  | '-' :: rest => (true, rest)
  | '+' :: rest => (false, rest)
  | _ => (false, chars)

/-- Decimal digits without a superfluous zero at the start. -/
def decimal? (chars : List Char) : Option (List Char) := do
  let digits ← digits? Char.isDigit chars
  if chars.head? = some '0' && chars.length > 1 then none else some digits

def integer? (chars : List Char) : Option Value := do
  match chars with
  | '0' :: 'x' :: rest => bounded? (valueOf 16 (← digits? (isDigitOf 16) rest))
  | '0' :: 'o' :: rest => bounded? (valueOf 8 (← digits? (isDigitOf 8) rest))
  | '0' :: 'b' :: rest => bounded? (valueOf 2 (← digits? (isDigitOf 2) rest))
  | _ =>
    let (negative, rest) := signed chars
    let value : Int := valueOf 10 (← decimal? rest)
    bounded? (if negative then -value else value)

/-- The value of an exponent, which may begin with zeros. -/
def exponent? (chars : List Char) : Option Int := do
  let (negative, rest) := signed chars
  let value : Int := valueOf 10 (← digits? Char.isDigit rest)
  some (if negative then -value else value)

/-- A number with a point or an exponent. One that is too large is refused, unless it is
negative. -/
def floating? (chars : List Char) : Option Value := do
  let (negative, rest) := signed chars
  match rest with
  | ['i', 'n', 'f'] => some (.floating (.infinite negative))
  | ['n', 'a', 'n'] => some (.floating .notANumber)
  | _ =>
    let isMark := fun c => c = 'e' || c = 'E'
    let mantissa := rest.takeWhile (!isMark ·)
    let power := rest.drop (mantissa.length + 1)
    let whole := mantissa.takeWhile (· ≠ '.')
    let fraction := mantissa.drop (whole.length + 1)
    let hasPoint := whole.length < mantissa.length
    let hasPower := mantissa.length < rest.length
    if !hasPoint && !hasPower then none
    let wholeDigits ← decimal? whole
    let fractionDigits ← if hasPoint then digits? Char.isDigit fraction else some []
    let exponent ← if hasPower then exponent? power else some 0
    let all := wholeDigits ++ fractionDigits
    match Decimal.Binary.ofDecimal? (valueOf 10 all) all.length (exponent - fractionDigits.length) with
    | some magnitude => some (.floating (.finite negative magnitude))
    | none => if negative then some (.floating (.infinite true)) else none

/-- A number of exactly two digits within bounds. -/
def two? (least greatest : Nat) (chars : List Char) : Option Nat :=
  if chars.length = 2 && chars.all Char.isDigit then
    let value := valueOf 10 chars
    if least ≤ value && value ≤ greatest then some value else none
  else none

def isLeap (year : Nat) : Bool :=
  (year % 4 = 0 && year % 100 ≠ 0) || year % 400 = 0

def daysIn (year month : Nat) : Nat :=
  if month = 2 then (if isLeap year then 29 else 28)
  else if month = 4 || month = 6 || month = 9 || month = 11 then 30 else 31

def isDate (chars : List Char) : Bool :=
  match Text.pieces '-' chars with
  | [year, month, day] =>
    year.length = 4 && year.all Char.isDigit &&
    ((two? 1 12 month).bind fun month => two? 1 (daysIn (valueOf 10 year) month) day).isSome
  | _ => false

def isSecond (chars : List Char) : Bool :=
  let whole := chars.takeWhile (· ≠ '.')
  let fraction := chars.drop (whole.length + 1)
  (two? 0 60 whole).isSome &&
  (whole.length = chars.length || (!fraction.isEmpty && fraction.all Char.isDigit))

def isTime (chars : List Char) : Bool :=
  match Text.pieces ':' chars with
  | [hour, minute, second] => (two? 0 23 hour).isSome && (two? 0 59 minute).isSome && isSecond second
  | _ => false

def isOffset (chars : List Char) : Bool :=
  match chars with
  | [c] => c = 'Z' || c = 'z'
  | sign :: rest =>
    (sign = '+' || sign = '-') &&
    match Text.pieces ':' rest with
    | [hour, minute] => (two? 0 23 hour).isSome && (two? 0 59 minute).isSome
    | _ => false
  | [] => false

def isFullTime (chars : List Char) : Bool :=
  let time := chars.takeWhile fun c => c.isDigit || c = ':' || c = '.'
  isTime time && (time.length = chars.length || isOffset (chars.drop time.length))

def datetime? (chars : List Char) : Option Value :=
  let date := chars.take 10
  let isWhole :=
    if isDate date then
      match chars.drop 10 with
      | [] => true
      | mark :: rest => (mark = 'T' || mark = 't' || mark = ' ') && isFullTime rest
    else isTime chars
  if isWhole then some .datetime else none

def boolean? (chars : List Char) : Option Value :=
  if chars = "true".toList then some (.boolean true)
  else if chars = "false".toList then some (.boolean false)
  else none

def isWordChar (c : Char) : Bool :=
  c.isAlphanum || c == '_' || c == '+' || c == '-' || c == '.' || c == ':'

def word : Reader (List Char) := do
  let first ← Reader.takeWhile isWordChar
  match ← get with
  | ' ' :: c :: _ =>
    if isDate first && c.isDigit then
      Reader.advance 1
      return first ++ ' ' :: (← Reader.takeWhile isWordChar)
    else return first
  | _ => return first

def read : Reader Value := do
  let chars ← word
  match (boolean? chars).or ((integer? chars).or ((floating? chars).or (datetime? chars))) with
  | some value => return value
  | none => failure

end CallFlow.Toml.Scalar
