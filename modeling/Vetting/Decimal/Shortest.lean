/-! The fewest decimal digits that read back as a given double, and of those the nearest to it.
A positive double is `m * 2 ^ q`; the reals that round to it form an interval around it, and the
digits are the first grid of one, two, … seventeen significant digits with a point in it. -/

namespace Vetting.Decimal

/-- The number `digits * 10 ^ exponent`. -/
structure Digits where
  digits : Nat
  exponent : Int
  deriving DecidableEq, Repr

/-- What a double stands for. -/
inductive Reading where
  | notANumber
  | infinity (negative : Bool)
  | finite (negative : Bool) (value : Digits)
  deriving Repr

/-- Divides by ten as long as nothing is lost; `steps` bounds the number of divisions. -/
def trimZeros : Nat → Digits → Digits
  | 0, d => d
  | steps + 1, d =>
      if d.digits ≠ 0 ∧ d.digits % 10 = 0 then trimZeros steps ⟨d.digits / 10, d.exponent + 1⟩
      else d

/-- The least `k` with `den ≤ num * 10 ^ k`, for numbers below one. -/
def leadingZeros (num den : Nat) : Nat → Nat → Nat
  | 0, k => k
  | steps + 1, k => if den ≤ num * Nat.pow 10 k then k else leadingZeros num den steps (k + 1)

/-- The exponent of the first significant digit of `num / den`. -/
def magnitude (num den : Nat) : Int :=
  if den ≤ num then ((Nat.toDigits 10 (num / den)).length : Int) - 1
  else -((leadingZeros num den 400 1 : Nat) : Int)

/-- Of the two neighbours of `num / den` on the grid of multiples of `10 ^ t`, the nearest one that
lies between `low / den` and `high / den`. -/
def onGrid? (num low high den : Nat) (closed : Bool) (t : Int) : Option Digits :=
  let up : Nat := if t < 0 then Nat.pow 10 t.natAbs else 1
  let down : Nat := if t < 0 then 1 else Nat.pow 10 t.natAbs
  let below : Nat := num * up / (den * down)
  let inside (d : Nat) : Bool :=
    if closed then low * up ≤ d * (den * down) && d * (den * down) ≤ high * up
    else low * up < d * (den * down) && d * (den * down) < high * up
  let distance (d : Nat) : Nat :=
    if num * up ≤ d * (den * down) then d * (den * down) - num * up
    else num * up - d * (den * down)
  let candidates := [below, below + 1].filter (fun d => d ≠ 0 && inside d)
  match candidates with
  | [] => none
  | [d] => some ⟨d, t⟩
  | a :: b :: _ =>
      if distance a < distance b || (distance a == distance b && a % 2 == 0) then some ⟨a, t⟩
      else some ⟨b, t⟩

/-- Tries grids of more and more digits. -/
def firstGrid (num low high den : Nat) (closed : Bool) (top : Int) : Nat → Nat → Digits
  | 0, k => ⟨num * Nat.pow 10 k / den, -(k : Int)⟩
  | steps + 1, k =>
      match onGrid? num low high den closed (top - k) with
      | some d => d
      | none => firstGrid num low high den closed top steps (k + 1)

/-- The shortest digits of `m * 2 ^ q`; `lowest` says that the next smaller double is only half as
far away as the next larger one. -/
def shortest (m : Nat) (q : Int) (lowest : Bool) : Digits :=
  let scale : Nat := if q < 2 then 1 else 1 <<< (q - 2).natAbs
  let den : Nat := if q < 2 then 1 <<< (q - 2).natAbs else 1
  let num := 4 * m * scale
  let low := (if lowest then 4 * m - 1 else 4 * m - 2) * scale
  let high := (4 * m + 2) * scale
  trimZeros 400 (firstGrid num low high den (m % 2 == 0) (magnitude num den) 20 0)

/-- Takes a double apart. -/
def read (x : Float) : Reading :=
  let bits := x.toBits.toNat
  let negative := bits >>> 63 == 1
  let exponent : Nat := (bits >>> 52) % 2048
  let fraction := bits % (1 <<< 52)
  if exponent == 2047 then
    if fraction == 0 then .infinity negative else .notANumber
  else if exponent == 0 then
    if fraction == 0 then .finite negative ⟨0, 0⟩
    else .finite negative (shortest fraction (-1074) false)
  else
    .finite negative
      (shortest ((1 <<< 52) + fraction) ((exponent : Int) - 1075) (fraction == 0 && exponent != 1))

/-- The digits written out in full, with a point where one is needed. -/
def Digits.positional (d : Digits) : String :=
  let text := toString d.digits
  if 0 ≤ d.exponent then text ++ String.ofList (List.replicate d.exponent.natAbs '0')
  else
    let places := d.exponent.natAbs
    let padded := List.replicate (places + 1 - text.length) '0' ++ text.toList
    String.ofList (padded.take (padded.length - places)) ++ "." ++
      String.ofList (padded.drop (padded.length - places))

/-- The text of a number in a message: no exponent, and no point in a whole number. -/
def text (x : Float) : String :=
  match read x with
  | .notANumber => "NaN"
  | .infinity negative => if negative then "-inf" else "inf"
  | .finite negative d => (if negative then "-" else "") ++ d.positional

/-- The text of a finite number in a document: a whole number keeps one zero after its point, and
very large and very small numbers have an exponent. -/
def documentText (x : Float) : String :=
  match read x with
  | .notANumber | .infinity _ => "null"
  | .finite negative d =>
      let sign := if negative then "-" else ""
      let top := d.exponent + ((toString d.digits).length : Int)
      if d.digits = 0 then sign ++ "0.0"
      else if 16 < top || top < -4 then sign ++ toString d.digits ++ "e" ++ toString d.exponent
      else if 0 ≤ d.exponent then sign ++ d.positional ++ ".0"
      else sign ++ d.positional

end Vetting.Decimal
