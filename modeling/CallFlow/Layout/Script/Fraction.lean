import CallFlow.Decimal.Rounded
import CallFlow.Layout.Script.Numeral

namespace CallFlow.Layout.Script

/-- How large a number is, without its sign. -/
inductive Size where
  | finite (number : Decimal.Binary)
  | infinite
  | undefined
  deriving DecidableEq, Repr

/-- A number of double precision. A zero has a sign, too. -/
structure Fraction where
  isNegative : Bool
  size : Size
  deriving DecidableEq, Repr

/-- A fraction at the start of a text, whether it could be kept as precisely as others, and what
follows it. -/
structure FractionRead where
  fraction : Fraction
  fits : Bool
  rest : Chars

namespace Fraction

def ofNat (value : Nat) : Fraction :=
  { isNegative := false, size := .finite ((Decimal.Binary.ofScaled? value 0).getD ⟨0, 0⟩) }

def word? (word : String) (chars : Chars) : Option Chars :=
  if (chars.take word.length).map Char.toLower = word.toList then some (chars.drop word.length)
  else none

/-- What may stand between parentheses after the word that means no number. -/
def dropNote (chars : Chars) : Chars :=
  match chars with
  | '(' :: rest =>
    match rest.dropWhile fun c => c.isAlphanum || c = '_' with
    | ')' :: left => left
    | _ => chars
  | _ => chars

/-- Digits with a point among them or not: the digits, how many of them follow the point, and what is
left. -/
def digits? (base : Nat) (chars : Chars) : Option (Chars × Nat × Chars) :=
  let whole := chars.takeWhile (isDigitOf base)
  let (part, left) : Chars × Chars := match chars.drop whole.length with
    | '.' :: rest =>
      let part := rest.takeWhile (isDigitOf base)
      (part, rest.drop part.length)
    | rest => ([], rest)
  if whole = [] && part = [] then none else some (whole ++ part, part.length, left)

/-- The exponent behind a letter. Without digits it is none, and the letter is left. -/
def exponent (letter : Char) (chars : Chars) : Int × Chars :=
  match chars with
  | [] => (0, [])
  | c :: rest =>
    let (isNegative, body) : Bool × Chars := match rest with
      | '-' :: body => (true, body)
      | '+' :: body => (false, body)
      | body => (false, body)
    let digits := body.takeWhile Char.isDigit
    if c.toLower ≠ letter || digits = [] then (0, chars)
    else
      let size : Int := ofDigits 10 digits
      (if isNegative then -size else size, body.drop digits.length)

/-- A finite number that was read, or what stands for one that is too large. Numbers that are too
small to have all their digits fit only if they need none of those that are lost. -/
def rounded (isNegative : Bool) (number? : Option Decimal.Binary) (digits base : Nat)
    (exponent : Int) (rest : Chars) : FractionRead :=
  match number? with
  | none => { fraction := { isNegative, size := .infinite }, fits := false, rest }
  | some number =>
    { fraction := { isNegative, size := .finite number }
      fits := number.mantissa ≥ Decimal.Binary.leastMantissa || number.equals digits base exponent
      rest }

def decimal? (isNegative : Bool) (chars : Chars) : Option FractionRead :=
  (digits? 10 chars).map fun (digits, places, left) =>
    let (power, rest) := exponent 'e' left
    let value := ofDigits 10 digits
    let power := power - places
    rounded isNegative (Decimal.Binary.ofDecimal? value digits.length power) value 10 power rest

def hexadecimal? (isNegative : Bool) (chars : Chars) : Option FractionRead :=
  match chars with
  | '0' :: x :: body =>
    if x.toLower ≠ 'x' then none
    else
      (digits? 16 body).map fun (digits, places, left) =>
        let (power, rest) := exponent 'p' left
        let value := ofDigits 16 digits
        let power := power - 4 * places
        rounded isNegative (Decimal.Binary.ofScaled? value power) value 2 power rest
  | _ => none

/-- Reads a number behind blanks, with its sign. -/
def read? (chars : Chars) : Option FractionRead :=
  let chars := chars.dropWhile isSpace
  let (isNegative, chars) : Bool × Chars := match chars with
    | '-' :: rest => (true, rest)
    | '+' :: rest => (false, rest)
    | _ => (false, chars)
  match word? "infinity" chars <|> word? "inf" chars, word? "nan" chars with
  | some rest, _ => some { fraction := { isNegative, size := .infinite }, fits := true, rest }
  | none, some rest =>
    some { fraction := { isNegative, size := .undefined }, fits := true, rest := dropNote rest }
  | none, none => hexadecimal? isNegative chars <|> decimal? isNegative chars

def pointed (keepsPoint : Bool) (places value : Nat) : Chars :=
  let digits := toDigits 10 value
  let digits := List.replicate (places + 1 - digits.length) '0' ++ digits
  let whole := digits.take (digits.length - places)
  if places = 0 then if keepsPoint then whole ++ ['.'] else whole
  else whole ++ '.' :: digits.drop (digits.length - places)

def powerText (letter : Char) (least : Nat) (power : Int) : Chars :=
  let digits := toDigits 10 power.natAbs
  letter :: (if power < 0 then '-' else '+') ::
    (List.replicate (least - digits.length) '0' ++ digits)

/-- A text with a point, without zeros at its end and without a point that nothing follows. -/
def dropZeros (text : Chars) : Chars :=
  if text.contains '.' then
    match text.reverse.dropWhile (· = '0') with
    | '.' :: rest => rest.reverse
    | rest => rest.reverse
  else text

def fixed (keepsPoint : Bool) (places : Nat) (number : Decimal.Binary) : Chars :=
  pointed keepsPoint places (number.roundedAt places)

def scientific (keepsPoint : Bool) (places : Nat) (number : Decimal.Binary) : Chars :=
  let (digits, power) := number.leading places
  pointed keepsPoint places digits ++ powerText 'e' 2 power

/-- A number to a count of digits, with an exponent if that is below -4 or not below the count. -/
def general (keepsZeros : Bool) (count : Nat) (number : Decimal.Binary) : Chars :=
  let count := max count 1
  let (digits, power) := number.leading (count - 1)
  let trim (text : Chars) : Chars := if keepsZeros then text else dropZeros text
  if -4 ≤ power && power < count then
    trim (fixed keepsZeros (count - 1 - power).toNat number)
  else trim (pointed keepsZeros (count - 1) digits) ++ powerText 'e' 2 power

def mantissaPlaces : Nat := (Decimal.Binary.mantissaBits - 1) / 4

/-- The exact digits of a number in base sixteen, or as many as are asked for. -/
def exact (keepsPoint : Bool) (places? : Option Nat) (number : Decimal.Binary) : Chars :=
  let digits (value : Nat) (places : Nat) : Chars :=
    let digits := toDigits 16 value
    let digits := List.replicate (places + 1 - digits.length) '0' ++ digits
    let part := digits.drop 1
    digits.take 1 ++ (if part = [] && !keepsPoint then [] else '.' :: part)
  let power := if number.mantissa = 0 then 0 else number.exponent + 4 * mantissaPlaces
  let text := match places? with
    | none =>
      let part := (((digits number.mantissa mantissaPlaces).drop 2).reverse.dropWhile (· = '0')).reverse
      (digits number.mantissa mantissaPlaces).take 1 ++
        (if part = [] && !keepsPoint then [] else '.' :: part)
    | some places =>
      if places < mantissaPlaces then
        digits (Decimal.roundDiv number.mantissa (Nat.pow 16 (mantissaPlaces - places))) places
      else digits (number.mantissa * Nat.pow 16 (places - mantissaPlaces)) places
  text ++ powerText 'p' 1 power

def text (kind : Char) (keepsPoint : Bool) (places? : Option Nat) (number : Decimal.Binary) : Chars :=
  match kind.toLower with
  | 'f' => fixed keepsPoint (places?.getD 6) number
  | 'e' => scientific keepsPoint (places?.getD 6) number
  | 'g' => general keepsPoint (places?.getD 6) number
  | _ => exact keepsPoint places? number

end Fraction

end CallFlow.Layout.Script
