/-!
Floating-point numbers of 64 bits, as far as they are finite, in exact arithmetic on natural
numbers. A number is a sign and a magnitude `mantissa * 2 ^ exponent`. Every operation computes the
exact quotient first and rounds it once, to the nearest number and half-way cases to the even
mantissa.
-/

namespace AttributeShell.Decimal

/-- A finite number: the mantissa has at most 53 bits, and all of them unless the exponent is the
least one. -/
structure Binary64 where
  negative : Bool
  mantissa : Nat
  exponent : Int
  deriving Repr, DecidableEq

namespace Binary64

def minExponent : Int := -1074

def maxExponent : Int := 971

def isZero (x : Binary64) : Bool := x.mantissa == 0

/-- The quotient rounded to the nearest natural number, and half-way cases to the even one. -/
def roundQuotient (num den : Nat) : Nat :=
  let q := num / den
  let r := num % den
  if 2 * r < den then q else if den < 2 * r then q + 1 else q + q % 2

/-- `num * 2 ^ shift / den` as a quotient of natural numbers. -/
def scaledQuotient (num den : Nat) (shift : Int) : Nat × Nat :=
  if 0 ≤ shift then (num * Nat.pow 2 shift.toNat, den) else (num, den * Nat.pow 2 (-shift).toNat)

/-- The exponent of the leading bit of a quotient of positive numbers. -/
def leadingBit (num den : Nat) : Int :=
  let guess : Int := (num.log2 : Int) - (den.log2 : Int)
  let scaled := scaledQuotient num den (-guess)
  if scaled.2 ≤ scaled.1 then guess else guess - 1

/-- The number nearest to a quotient, unless it is too great. -/
def ofQuotient (num den : Nat) : Option Binary64 :=
  if num = 0 then some ⟨false, 0, minExponent⟩
  else
    let exponent := max minExponent (leadingBit num den - 52)
    let scaled := scaledQuotient num den (-exponent)
    let mantissa := roundQuotient scaled.1 scaled.2
    let carried : Nat × Int :=
      if mantissa = Nat.pow 2 53 then (Nat.pow 2 52, exponent + 1) else (mantissa, exponent)
    if maxExponent < carried.2 then none else some ⟨false, carried.1, carried.2⟩

def toQuotient (x : Binary64) : Nat × Nat :=
  if 0 ≤ x.exponent then (x.mantissa * Nat.pow 2 x.exponent.toNat, 1)
  else (x.mantissa, Nat.pow 2 (-x.exponent).toNat)

/-- The product of two magnitudes, unless it is too great. -/
def mulMagnitude (x y : Binary64) : Option Binary64 :=
  ofQuotient (x.toQuotient.1 * y.toQuotient.1) (x.toQuotient.2 * y.toQuotient.2)

/-- The quotient of two magnitudes, unless it is too great. -/
def divMagnitude (x y : Binary64) : Option Binary64 :=
  ofQuotient (x.toQuotient.1 * y.toQuotient.2) (x.toQuotient.2 * y.toQuotient.1)

/-- The greatest power of ten that is a number of this kind. -/
def maxPower : Nat := 308

/-- Multiplies by a power of ten, or divides by one. An exponent out of the range of the powers is
worked off in steps, and the result is rounded after each of them. -/
def scaleByPower (x : Binary64) (exponent : Int) : Option Binary64 :=
  if exponent.natAbs ≤ maxPower then do
    let power ← ofQuotient (Nat.pow 10 exponent.natAbs) 1
    if 0 ≤ exponent then x.mulMagnitude power else x.divMagnitude power
  else if x.isZero then some x
  else if 0 ≤ exponent then none
  else do
    let power ← ofQuotient (Nat.pow 10 maxPower) 1
    let smaller ← x.divMagnitude power
    scaleByPower smaller (exponent + maxPower)
termination_by exponent.natAbs
decreasing_by
  have : maxPower = 308 := rfl
  omega

/-- The number that a decimal of so many digits and a power of ten stands for. The digits are
rounded before they are scaled. -/
def ofDecimal (negative : Bool) (digits : Nat) (exponent : Int) : Option Binary64 := do
  let significand ← ofQuotient digits 1
  let magnitude ← significand.scaleByPower exponent
  return { magnitude with negative }

end Binary64

end AttributeShell.Decimal
