namespace CallFlow.Decimal

/-- The number `mantissa * 2 ^ exponent`. A mantissa below `2 ^ 52` occurs only with the least
exponent. -/
structure Binary where
  mantissa : Nat
  exponent : Int
  deriving DecidableEq, Repr

/-- A quotient rounded to the nearest whole number, and from the middle to the even one. -/
def roundDiv (num den : Nat) : Nat :=
  let quotient := num / den
  let rest := 2 * (num % den)
  if rest < den || (rest = den && quotient % 2 = 0) then quotient else quotient + 1

def scaled (num den base : Nat) (exponent : Int) : Nat × Nat :=
  if exponent < 0 then (num, den * base.pow (-exponent).toNat)
  else (num * base.pow exponent.toNat, den)

namespace Binary

def leastExponent : Int := -1074

def greatestExponent : Int := 971

def mantissaBits : Nat := 53

def leastMantissa : Nat := Nat.pow 2 (mantissaBits - 1)

/-- The exponent for which a quotient has a mantissa of full length, unless that is too small. -/
def exponentOf (num den : Nat) : Int :=
  let guess : Int := Nat.log2 num - Nat.log2 den - (mantissaBits - 1)
  let (top, bottom) := scaled num den 2 (-guess)
  let exponent := if top / bottom < leastMantissa then guess - 1 else guess
  if exponent < leastExponent then leastExponent else exponent

/-- The nearest number to a quotient, if it is not beyond all of them. -/
def ofQuotient? (num den : Nat) : Option Binary :=
  if num = 0 then some { mantissa := 0, exponent := leastExponent }
  else
    let exponent := exponentOf num den
    let (top, bottom) := scaled num den 2 (-exponent)
    let mantissa := roundDiv top bottom
    let rounded : Binary :=
      if mantissa = 2 * leastMantissa then { mantissa := leastMantissa, exponent := exponent + 1 }
      else { mantissa, exponent }
    if rounded.exponent > greatestExponent then none else some rounded

def farExponent : Int := 400

/-- The nearest number to `digits * 10 ^ exponent`, where `digits` has the given length. -/
def ofDecimal? (digits length : Nat) (exponent : Int) : Option Binary :=
  if digits = 0 || exponent + length < -farExponent then ofQuotient? 0 1
  else if exponent > farExponent then none
  else
    let (num, den) := scaled digits 1 10 exponent
    ofQuotient? num den

end Binary

end CallFlow.Decimal
