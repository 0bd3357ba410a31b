import CallFlow.Layout.Program

namespace CallFlow.Layout.Script

def digitValue? (c : Char) : Option Nat :=
  if c.isDigit then some (c.toNat - '0'.toNat)
  else if 'a' ≤ c && c ≤ 'f' then some (c.toNat - 'a'.toNat + 10)
  else if 'A' ≤ c && c ≤ 'F' then some (c.toNat - 'A'.toNat + 10)
  else none

def isDigitOf (base : Nat) (c : Char) : Bool :=
  (digitValue? c).any (· < base)

def ofDigits (base : Nat) (digits : Chars) : Nat :=
  digits.foldl (fun value c => value * base + (digitValue? c).getD 0) 0

def toDigits (base value : Nat) : Chars :=
  Nat.toDigits base value

def isSpace (c : Char) : Bool :=
  c = ' ' || (0x9 ≤ c.toNat && c.toNat ≤ 0xD)

/-- A number at the start of a text. -/
structure Numeral where
  isNegative : Bool
  magnitude : Nat
  rest : Chars

namespace Numeral

/-- The base of a number that begins with zero tells itself: `0x` is sixteen, and eight otherwise. -/
def unsigned (chars : Chars) : Option (Nat × Chars) :=
  let read (base : Nat) (chars : Chars) : Option (Nat × Chars) :=
    match chars.takeWhile (isDigitOf base) with
    | [] => none
    | digits => some (ofDigits base digits, chars.drop digits.length)
  match chars with
  | '0' :: x :: c :: rest =>
    if (x = 'x' || x = 'X') && isDigitOf 16 c then read 16 (c :: rest) else read 8 chars
  | '0' :: _ => read 8 chars
  | _ => read 10 chars

def read? (decimal : Bool) (chars : Chars) : Option Numeral :=
  let chars := chars.dropWhile isSpace
  let (isNegative, chars) : Bool × Chars := match chars with
    | '-' :: rest => (true, rest)
    | '+' :: rest => (false, rest)
    | _ => (false, chars)
  if decimal then
    match chars.takeWhile Char.isDigit with
    | [] => none
    | digits =>
      some { isNegative, magnitude := ofDigits 10 digits, rest := chars.drop digits.length }
  else (unsigned chars).map fun (magnitude, rest) => { isNegative, magnitude, rest }

/-- How many numbers of 64 bits there are. -/
def range : Nat := Nat.pow 2 64

/-- How many of them are negative if they have a sign. -/
def halfRange : Nat := Nat.pow 2 63

def signed (numeral : Numeral) : Int × Bool :=
  if numeral.isNegative then
    if numeral.magnitude ≤ halfRange then (-numeral.magnitude, true) else (-halfRange, false)
  else if numeral.magnitude < halfRange then (numeral.magnitude, true)
  else (halfRange - 1, false)

/-- The number as one of 64 bits without a sign, and whether it fits. A negative one counts from the
end. -/
def natural (numeral : Numeral) : Nat × Bool :=
  if numeral.magnitude ≥ range then (range - 1, false)
  else if numeral.isNegative then ((range - numeral.magnitude) % range, true)
  else (numeral.magnitude, true)

/-- The whole text as a number, with blanks around it. -/
def whole? (decimal : Bool) (chars : Chars) : Option Int :=
  match read? decimal chars with
  | none => none
  | some numeral =>
    let (value, fits) := numeral.signed
    if fits && numeral.rest.all isSpace then some value else none

end Numeral

end CallFlow.Layout.Script
