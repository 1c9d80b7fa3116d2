import AttributeShell.Decimal.Binary64

/-!
The shortest decimal that reads back as a given floating-point number, and its text. For one digit,
two digits and so on, the two decimals next to the number are tried; the first length at which one
of them lies among the reals that round to the number is taken, and of two such decimals the nearer.
-/

namespace AttributeShell.Decimal

/-- A decimal: its digits, the first and the last of them not zero, and the power of ten of the
first. -/
structure Scientific where
  digits : List Char
  power : Int
  deriving Repr, DecidableEq

/-- The reals that round to a positive number, as multiples of a quarter of its last bit: the lower
end, the number, the upper end. Below a power of two the numbers lie closer. -/
def roundingInterval (x : Binary64) : Nat × Nat × Nat :=
  let lower := if x.mantissa = Nat.pow 2 52 ∧ Binary64.minExponent < x.exponent then 1 else 2
  (4 * x.mantissa - lower, 4 * x.mantissa, 4 * x.mantissa + 2)

/-- `quarters * 2 ^ (exponent - 2) * 10 ^ (-grid)` as a quotient. -/
def inGrid (quarters : Nat) (exponent grid : Int) : Nat × Nat :=
  let twos := exponent - 2
  let num := quarters * Nat.pow 2 twos.toNat * Nat.pow 10 (-grid).toNat
  let den := Nat.pow 2 (-twos).toNat * Nat.pow 10 grid.toNat
  (num, den)

/-- Whether a point of a grid lies among the reals that round to the number. The ends belong to them
if the mantissa is even. -/
def readsBack (x : Binary64) (grid : Int) (point : Nat) : Bool :=
  let (lower, _, upper) := roundingInterval x
  let (lowNum, lowDen) := inGrid lower x.exponent grid
  let (highNum, highDen) := inGrid upper x.exponent grid
  if x.mantissa % 2 = 0 then lowNum ≤ point * lowDen && point * highDen ≤ highNum
  else lowNum < point * lowDen && point * highDen < highNum

/-- The point of a grid that reads back as the number, the nearer one if there are two. -/
def pointOn (x : Binary64) (grid : Int) : Option Nat :=
  let (num, den) := inGrid (roundingInterval x).2.1 x.exponent grid
  let below := num / den
  let above := below + 1
  match readsBack x grid below, readsBack x grid above with
  | true, true =>
    let r := num % den
    if 2 * r < den then some below
    else if den < 2 * r then some above
    else some (below + below % 2)
  | true, false => some below
  | false, true => some above
  | false, false => none

/-- The power of ten of the first digit of a quotient. -/
def leadingPower (num den : Nat) : Int :=
  if den ≤ num then ((Nat.toDigits 10 (num / den)).length : Int) - 1
  else
    let guess := (Nat.toDigits 10 (den / num)).length
    if den ≤ num * Nat.pow 10 (guess - 1) then 1 - (guess : Int) else -(guess : Int)

/-- A number of a grid without the zeros at its end. -/
def Scientific.ofPoint (point : Nat) (grid : Int) : Scientific :=
  let all := Nat.toDigits 10 point
  { digits := (all.reverse.dropWhile (· == '0')).reverse, power := grid + (all.length : Int) - 1 }

/-- The first grid with a point that reads back, from the coarsest on. -/
def shortestFrom (x : Binary64) (leading : Int) : Nat → Nat → Scientific
  | 0, digits => Scientific.ofPoint x.mantissa (leading - (digits : Int))
  | more + 1, digits =>
    match pointOn x (leading - (digits : Int)) with
    | some point => .ofPoint point (leading - (digits : Int))
    | none => shortestFrom x leading more (digits + 1)

/-- The shortest decimal of a positive number. Seventeen digits always suffice. -/
def shortest (x : Binary64) : Scientific :=
  let (num, den) := x.toQuotient
  shortestFrom x (leadingPower num den) 18 0

/-- How the decimals of a format are written. -/
structure Layout where
  /-- The least power of ten that is written with a point alone. -/
  minPlain : Int
  /-- The greatest power of ten that is written with a point alone. -/
  maxPlain : Int

/-- A decimal with a point, and an exponent if its power is out of the plain range. A number without
a fraction is written with a zero behind the point, but for one with an exponent. -/
def Scientific.layOut (layout : Layout) (decimal : Scientific) : List Char :=
  let digits := decimal.digits
  if layout.minPlain ≤ decimal.power ∧ decimal.power ≤ layout.maxPlain then
    if decimal.power < 0 then
      ['0', '.'] ++ List.replicate (-decimal.power - 1).toNat '0' ++ digits
    else
      let whole := decimal.power.toNat + 1
      if digits.length ≤ whole then
        digits ++ List.replicate (whole - digits.length) '0' ++ ['.', '0']
      else digits.take whole ++ '.' :: digits.drop whole
  else
    let fraction := if digits.length ≤ 1 then [] else '.' :: digits.drop 1
    let sign := if decimal.power < 0 then '-' else '+'
    digits.take 1 ++ fraction ++ ['e', sign] ++ (toString decimal.power.natAbs).toList

def Binary64.layOut (layout : Layout) (x : Binary64) : List Char :=
  let magnitude := if x.isZero then ['0', '.', '0'] else (shortest x).layOut layout
  if x.negative then '-' :: magnitude else magnitude

end AttributeShell.Decimal
