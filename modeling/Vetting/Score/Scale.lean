/-! The numbers in which scores are counted. Everything that computes a score is written once, over
any scale: binary floating point is the scale that runs, and exact fractions are the scale in which
a score is read as a number. -/

namespace Vetting

/-- Numbers in which scores are counted. -/
class Scale (R : Type) extends Add R, Sub R, Mul R, Div R where
  /-- The number `digits / 10 ^ places`. -/
  decimal : Nat → Nat → R
  /-- Whether the first number is at most the second. -/
  atMost : R → R → Bool
  /-- Rounding to a number of places, halves away from zero. -/
  round : Nat → R → R
  /-- The nearest number between zero and one; what is no number counts as zero. -/
  clampUnit : R → R

namespace Scale

variable {R : Type} [Scale R]

/-- A number of hundredths. -/
def hundredths (n : Nat) : R :=
  decimal n 2

/-- A whole number. -/
def whole (n : Nat) : R :=
  decimal n 0

/-- The sum of a list, added up from the left. -/
def total (numbers : List R) : R :=
  numbers.foldl (· + ·) (whole 0)

/-- Whether a number is zero. -/
def isZero (x : R) : Bool :=
  atMost x (whole 0) && atMost (whole 0) x

/-- The larger of two numbers. -/
def larger (a b : R) : R :=
  if atMost b a then a else b

end Scale

/-- A power by repeated squaring, the least significant bit of the exponent first; `steps` bounds
the number of bits. -/
def powerBySquaring : Nat → Float → Nat → Float → Float
  | 0, _, _, result => result
  | steps + 1, base, exponent, result =>
      let result := if exponent % 2 == 1 then result * base else result
      if exponent / 2 == 0 then result
      else powerBySquaring steps (base * base) (exponent / 2) result

/-- A power of ten in floating point. -/
def powerOfTen (exponent : Int) : Float :=
  let power := powerBySquaring (exponent.natAbs + 1) 10.0 exponent.natAbs 1.0
  if exponent < 0 then 1.0 / power else power

/-- Rounds to a number of places, halves away from zero; places may be negative. -/
def roundTo (x : Float) (places : Int) : Float :=
  let factor := powerOfTen places
  (x * factor).round / factor

/-- The scale that runs. -/
instance : Scale Float where
  decimal digits places := Float.ofScientific digits true places
  atMost a b := a <= b
  round places x := roundTo x places
  clampUnit x := if x.isNaN || x < 0.0 then 0.0 else if 1.0 < x then 1.0 else x

end Vetting
