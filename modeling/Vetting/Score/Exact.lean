import Vetting.Score.Scale

/-! The exact scale: fractions, together with the two infinities and the value that is no number. A
sum, difference, product or quotient of fractions is a fraction, and clamping always yields one. -/

namespace Vetting

/-- A fraction, an infinity, or no number. -/
inductive Exact where
  | notANumber
  | infinity (negative : Bool)
  | fraction (value : Rat)
  deriving DecidableEq

namespace Exact

/-- Applies an operation to two fractions; there is no answer for anything else. -/
def lift (op : Rat → Rat → Rat) : Exact → Exact → Exact
  | fraction a, fraction b => fraction (op a b)
  | _, _ => notANumber

/-- Whether the first is at most the second; what is no number compares with nothing. -/
def atMost : Exact → Exact → Bool
  | fraction a, fraction b => decide (a ≤ b)
  | infinity negative, fraction _ => negative
  | fraction _, infinity negative => !negative
  | infinity a, infinity b => a || !b
  | _, _ => false

/-- Rounds a fraction to a number of places, halves away from zero. -/
def roundFraction (places : Nat) (q : Rat) : Rat :=
  let factor : Rat := Nat.pow 10 places
  if 0 ≤ q then ((q * factor + 1 / 2).floor : Rat) / factor
  else -(((-q * factor + 1 / 2).floor : Rat) / factor)

/-- Rounding leaves everything but fractions alone. -/
def round (places : Nat) : Exact → Exact
  | fraction q => fraction (roundFraction places q)
  | other => other

/-- The nearest fraction between zero and one. -/
def clampUnit : Exact → Exact
  | notANumber => fraction 0
  | infinity negative => fraction (if negative then 0 else 1)
  | fraction q => fraction (if q < 0 then 0 else if 1 < q then 1 else q)

end Exact

/-- The exact scale. -/
instance : Scale Exact where
  add := Exact.lift (· + ·)
  sub := Exact.lift (· - ·)
  mul := Exact.lift (· * ·)
  div := Exact.lift (· / ·)
  decimal digits places := .fraction ((digits : Rat) / (Nat.pow 10 places : Rat))
  atMost := Exact.atMost
  round := Exact.round
  clampUnit := Exact.clampUnit

end Vetting
