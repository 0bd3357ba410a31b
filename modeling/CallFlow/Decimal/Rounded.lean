import CallFlow.Decimal.Shortest

namespace CallFlow.Decimal.Binary

def roundedAt (number : Binary) (places : Int) : Nat :=
  let (num, den) := scaled number.mantissa 1 2 number.exponent
  let (num, den) := scaled num den 10 places
  roundDiv num den

/-- A first digit and so many more, as one number, and the power of ten that the first one counts. A
number that rounds up to the next power of ten has a digit more before that. -/
def leading (number : Binary) (more : Nat) : Nat × Int :=
  if number.mantissa = 0 then (0, 0)
  else
    let power := number.magnitude - 1
    let digits := number.roundedAt (more - power)
    if digits < Nat.pow 10 (more + 1) then (digits, power) else (digits / 10, power + 1)

def equals (number : Binary) (digits base : Nat) (exponent : Int) : Bool :=
  if number.mantissa = 0 then digits = 0
  else
    let (num, den) := scaled digits 1 base exponent
    let (top, bottom) := scaled number.mantissa 1 2 number.exponent
    num * bottom = top * den

def ofScaled? (digits : Nat) (exponent : Int) : Option Binary :=
  let size : Int := exponent + Nat.log2 digits
  if digits = 0 || size < leastExponent - 2 then ofQuotient? 0 1
  else if size > greatestExponent + mantissaBits then none
  else
    let (num, den) := scaled digits 1 2 exponent
    ofQuotient? num den

end CallFlow.Decimal.Binary
