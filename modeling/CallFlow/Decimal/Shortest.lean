import CallFlow.Decimal.Binary

namespace CallFlow.Decimal

/-- The bounds of the numbers that round to a given one, as quarters of its unit. They are nearer
below a power of two. -/
def Binary.bounds (number : Binary) : Nat × Nat :=
  let isPower := number.mantissa = Binary.leastMantissa &&
    number.exponent ≠ Binary.leastExponent
  (4 * number.mantissa - (if isPower then 1 else 2), 4 * number.mantissa + 2)

/-- Whether `digits * 10 ^ exponent` rounds to a number. A bound belongs to it if its mantissa is
even. -/
def Binary.roundsFrom (number : Binary) (digits : Nat) (exponent : Int) : Bool :=
  let (low, high) := number.bounds
  let (num, den) := scaled digits 1 10 exponent
  -- Both sides in quarters of the unit of the number.
  let (unitNum, unitDen) := scaled 1 4 2 number.exponent
  let value := num * unitDen
  let unit := den * unitNum
  if number.mantissa % 2 = 0 then low * unit ≤ value && value ≤ high * unit
  else low * unit < value && value < high * unit

/-- The neighbours of a number among the multiples of a power of ten, the nearer one first, and the
upper one if neither is nearer. -/
def Binary.neighbours (number : Binary) (exponent : Int) : List Nat :=
  let (num, den) := scaled number.mantissa 1 2 number.exponent
  let (num, den) := scaled num den 10 (-exponent)
  let below := num / den
  if 2 * (num % den) < den then [below, below + 1] else [below + 1, below]

/-- The least power of ten above a number. -/
def Binary.magnitude (number : Binary) : Int :=
  let (num, den) := scaled number.mantissa 1 2 number.exponent
  let guess : Int := ((Nat.log2 num : Int) - Nat.log2 den) * 30103 / 100000 - 1
  let least := (List.range 5).find? fun step =>
    let (top, bottom) := scaled num den 10 (-(guess + (step : Nat)))
    top < bottom
  guess + (least.getD 0 : Nat)

/-- A number just below a power of ten may round from that power, which has a digit too many. -/
def dropZero (digits : Nat) (exponent : Int) : Nat × Int :=
  if digits % 10 = 0 then (digits / 10, exponent + 1) else (digits, exponent)

/-- The digits of a number and the power of ten that they count. -/
def Binary.shortest (number : Binary) : Nat × Int :=
  let magnitude := number.magnitude
  let found := (List.range 17).findSome? fun length =>
    let exponent := magnitude - ((length : Nat) + 1)
    ((number.neighbours exponent).find? (number.roundsFrom · exponent)).map
      (dropZero · exponent)
  found.getD (number.mantissa, 0)

/-- A number without an exponent, and with a point. -/
def positional (digits : Nat) (exponent : Int) : String :=
  let text := toString digits
  if 0 ≤ exponent then text ++ String.ofList (List.replicate exponent.toNat '0') ++ ".0"
  else
    let places := (-exponent).toNat
    let padded := String.ofList (List.replicate (places + 1 - text.length) '0') ++ text
    let whole := padded.length - places
    String.ofList (padded.toList.take whole) ++ "." ++ String.ofList (padded.toList.drop whole)

def Binary.text (number : Binary) : String :=
  if number.mantissa = 0 then "0.0"
  else
    let (digits, exponent) := number.shortest
    positional digits exponent

end CallFlow.Decimal
