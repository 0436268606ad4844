/-!
# The shortest decimal of a binary number

A binary floating-point number stands for all reals that round to it.  They form
an interval around the number, and the number is written with as few digits as
a decimal in that interval can have; among the decimals with so few digits the
one nearest to the number is taken, and of two equally near ones the even one.

Everything happens in exact arithmetic.  For a given number of digits the
decimals form a grid, and if the interval holds a point of the grid, it holds
one of the two neighbours of the number on it.
-/

namespace ContainerAttach.Decimal

/-- A positive number and the ends of its interval, over a common denominator. -/
structure Rounding where
  low : Nat
  value : Nat
  high : Nat
  denominator : Nat
  /-- Whether the ends belong to the interval. -/
  closed : Bool
  deriving DecidableEq, Repr

/-- The interval of the number `mantissa * 2 ^ exponent`.  Below a power of two the spacing
is half of that above it, unless the number is among the smallest. -/
def Rounding.ofParts (mantissa : Nat) (exponent : Int) (narrowBelow : Bool) : Rounding :=
  let scale := Nat.pow 2 (exponent - 2).toNat
  { low := (4 * mantissa - (if narrowBelow then 1 else 2)) * scale
    value := 4 * mantissa * scale
    high := (4 * mantissa + 2) * scale
    denominator := Nat.pow 2 (2 - exponent).toNat
    closed := mantissa % 2 == 0 }

/-- The first value that the mantissa field cannot hold. -/
def mantissaRange : Nat := Nat.pow 2 52

/-- The first value that the exponent field cannot hold. -/
def exponentRange : Nat := Nat.pow 2 11

/-- The interval of a positive finite number, from the exponent and mantissa fields. -/
def Rounding.ofFields (exponent mantissa : Nat) : Rounding :=
  if exponent = 0 then .ofParts mantissa (-1074) false
  else .ofParts (mantissaRange + mantissa) (exponent - 1075 : Int)
    (mantissa == 0 && exponent != 1)

/-- The decimal `digits * 10 ^ exponent`. -/
structure Digits where
  digits : Nat
  exponent : Int
  deriving DecidableEq, Repr

namespace Rounding

def leading (rounding : Rounding) : Int :=
  let margin : Nat := 400
  ((Nat.toDigits 10 (rounding.value * Nat.pow 10 margin / rounding.denominator)).length : Int)
    - 1 - margin

/-- The factor for numerators on the grid of a power of ten. -/
def numeratorScale (exponent : Int) : Nat := Nat.pow 10 (-exponent).toNat

/-- The denominator on the grid of a power of ten. -/
def gridDenominator (rounding : Rounding) (exponent : Int) : Nat :=
  rounding.denominator * Nat.pow 10 exponent.toNat

/-- Whether a point of a grid lies in the interval. -/
def holds (rounding : Rounding) (exponent : Int) (point : Nat) : Bool :=
  let low := rounding.low * numeratorScale exponent
  let high := rounding.high * numeratorScale exponent
  let here := point * rounding.gridDenominator exponent
  if rounding.closed then low ≤ here && here ≤ high else low < here && here < high

/-- The neighbour of the number on a grid that is nearer to it; the even one of two that are
equally near. -/
def nearer (rounding : Rounding) (exponent : Int) : Nat :=
  let scaled := rounding.value * numeratorScale exponent
  let below := scaled / rounding.gridDenominator exponent
  let rest := scaled % rounding.gridDenominator exponent
  match compare (2 * rest) (rounding.gridDenominator exponent) with
  | .lt => below
  | .gt => below + 1
  | .eq => if below % 2 = 0 then below else below + 1

/-- The point that is taken on a grid, if the interval holds one. -/
def hit? (rounding : Rounding) (exponent : Int) : Option Digits :=
  let below := rounding.value * numeratorScale exponent / rounding.gridDenominator exponent
  [rounding.nearer exponent, below, below + 1].find? (rounding.holds exponent)
    |>.map fun point => ⟨point, exponent⟩

/-- The decimal with the fewest digits in the interval; seventeen are always enough. -/
def shortest (rounding : Rounding) : Digits :=
  let grids := (List.range 17).map fun (places : Nat) => rounding.leading - places
  (grids.findSome? rounding.hit?).getD ⟨rounding.nearer (rounding.leading - 16),
    rounding.leading - 16⟩

end Rounding

/-- The digits without zeros at the end, and how many zeros there were. -/
def stripZeros (digits : List Char) : List Char × Nat :=
  let zeros := (digits.reverse.takeWhile (· = '0')).length
  (digits.take (digits.length - zeros), zeros)

/-- A decimal in scientific form: its digits, at least one, and the exponent of the first. -/
structure Scientific where
  digits : List Char
  exponent : Int
  deriving DecidableEq, Repr

def Digits.scientific (decimal : Digits) : Scientific :=
  let all := Nat.toDigits 10 decimal.digits
  { digits := (stripZeros all).1
    exponent := decimal.exponent + (all.length - 1 : Nat) }

/-- Numbers whose first digit has an exponent in this range are written without one. -/
def isPositional (exponent : Int) : Bool :=
  -5 ≤ exponent && exponent < 16

/-- The text of a positive number.  A positional text always has a point with a digit on
either side of it; an exponent always has a sign. -/
def Scientific.text (number : Scientific) : List Char :=
  let digits := number.digits
  if isPositional number.exponent then
    if number.exponent < 0 then
      ['0', '.'] ++ List.replicate (-number.exponent - 1).toNat '0' ++ digits
    else
      let places := number.exponent.toNat + 1
      if digits.length ≤ places then
        digits ++ List.replicate (places - digits.length) '0' ++ ['.', '0']
      else digits.take places ++ ['.'] ++ digits.drop places
  else
    digits.take 1 ++ (if digits.length ≤ 1 then [] else '.' :: digits.drop 1)
      ++ ['e', if number.exponent < 0 then '-' else '+']
      ++ Nat.toDigits 10 number.exponent.natAbs

/-- The text of a finite number of the given bits. -/
def textOfBits (bits : UInt64) : String :=
  let exponent := bits.toNat / mantissaRange % exponentRange
  let mantissa := bits.toNat % mantissaRange
  let magnitude :=
    if exponent = 0 ∧ mantissa = 0 then ['0', '.', '0']
    else (Rounding.ofFields exponent mantissa).shortest.scientific.text
  let negative := mantissaRange * exponentRange ≤ bits.toNat
  String.ofList (if negative then '-' :: magnitude else magnitude)

/-- The shortest text that reads back as the given finite number. -/
def shortest (number : Float) : String :=
  textOfBits number.toBits

end ContainerAttach.Decimal
