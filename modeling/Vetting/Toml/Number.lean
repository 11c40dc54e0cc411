import Vetting.Toml.Lexeme

/-! Numbers, dates and times. A number may have underscores between its digits; a date or a time
is read for its form and its limits only. -/

namespace Vetting.Toml

/-- Digits with single underscores between them. -/
def digits? (isDigit : Char → Bool) (s : List Char) : Option (List Char × List Char) :=
  match s with
  | c :: rest => if isDigit c then more rest.length rest [c] else none
  | [] => none
where
  /-- Adds digits to those before, the last one of which is given first. -/
  more : Nat → List Char → List Char → Option (List Char × List Char)
    | 0, s, read => some (read.reverse, s)
    | count + 1, s, read =>
        match s with
        | '_' :: c :: rest => if isDigit c then more count rest (c :: read) else none
        | '_' :: [] => none
        | c :: rest => if isDigit c then more count rest (c :: read) else some (read.reverse, s)
        | [] => some (read.reverse, [])

/-- A sign, when there is one: whether it is a minus. -/
def sign : List Char → Bool × List Char
  | '+' :: rest => (false, rest)
  | '-' :: rest => (true, rest)
  | s => (false, s)

/-- The digits of a whole number, which has no zeros in front. -/
def wholeDigits? (s : List Char) : Option (List Char × List Char) :=
  match s with
  | '0' :: rest => some (['0'], rest)
  | s => digits? Char.isDigit s

/-- Whether a whole number fits 64 bits. -/
def fits (n : Int) : Bool :=
  Int64.minValue.toInt ≤ n && n ≤ Int64.maxValue.toInt

/-- The value of digits in a base. -/
def valueIn (base : Nat) (digits : List Char) : Nat :=
  digits.foldl (fun n d => n * base + ((hexNumber? [d]).getD 0)) 0

/-- A whole number. -/
def integer? (s : List Char) : Option (Json × List Char) :=
  let inBase (base : Nat) (isDigit : Char → Bool) (s : List Char) : Option (Json × List Char) := do
    let (digits, rest) ← digits? isDigit s
    let n : Int := valueIn base digits
    if fits n then return (.int n, rest) else none
  match s with
  | '0' :: 'x' :: rest => inBase 16 (fun c => (hexNumber? [c]).isSome) rest
  | '0' :: 'o' :: rest => inBase 8 (fun c => '0' ≤ c && c ≤ '7') rest
  | '0' :: 'b' :: rest => inBase 2 (fun c => c == '0' || c == '1') rest
  | s => do
      let (negative, s) := sign s
      let (digits, rest) ← wholeDigits? s
      let n : Int := valueIn 10 digits
      let n := if negative then -n else n
      if fits n then return (.int n, rest) else none

/-- The digits of a fraction, when there is one. -/
def fraction? : List Char → Option (List Char × List Char)
  | '.' :: rest => digits? Char.isDigit rest
  | s => some ([], s)

/-- An exponent, when there is one. -/
def exponent? : List Char → Option (Option Int × List Char)
  | e :: rest =>
      if e == 'e' || e == 'E' then do
        let (negative, s) := sign rest
        let (digits, rest) ← digits? Char.isDigit s
        let n : Int := valueIn 10 digits
        return (some (if negative then -n else n), rest)
      else some (none, e :: rest)
  | [] => some (none, [])

/-- The exponents beyond which no number is told apart from zero or infinity, given the number of
its digits. -/
def boundExponent (digits : Nat) (e : Int) : Int :=
  let limit : Int := 400 + digits
  if e < -limit then -limit else if limit < e then limit else e

/-- The number with some digits, a number of which stand behind the point, and an exponent. -/
def decimal (digits : List Char) (places : Nat) (e : Int) : Float :=
  let shift := boundExponent digits.length e - places
  Float.ofScientific (valueIn 10 digits) (shift < 0) shift.natAbs

/-- A number with a fraction or an exponent. A number that is too large is refused, but not one
that is too small. -/
def real? (s : List Char) : Option (Json × List Char) :=
  let (negative, s) := sign s
  match s with
  | 'i' :: 'n' :: 'f' :: rest =>
      some (.real (if negative then -1.0 / 0.0 else 1.0 / 0.0), rest)
  | 'n' :: 'a' :: 'n' :: rest => some (.real (0.0 / 0.0), rest)
  | s => do
      let (whole, s) ← wholeDigits? s
      let (behind, rest) ← fraction? s
      let (e, rest) ← exponent? rest
      if behind.isEmpty && e.isNone then none
      let size := decimal (whole ++ behind) behind.length (e.getD 0)
      if negative then return (.real (-size), rest)
      else if size.isInf then none
      else return (.real size, rest)

/-- A number of exactly some digits within limits. -/
def limited? (count low high : Nat) (s : List Char) : Option (Nat × List Char) :=
  let digits := s.take count
  if digits.length == count && digits.all Char.isDigit then
    let n := valueIn 10 digits
    if low ≤ n && n ≤ high then some (n, s.drop count) else none
  else none

/-- What follows a character. -/
def mark? (c : Char) : List Char → Option (List Char)
  | first :: rest => if first == c then some rest else none
  | [] => none

/-- Skips a date. -/
def date? (s : List Char) : Option (List Char) := do
  let (year, s) ← limited? 4 0 9999 s
  let (month, s) ← limited? 2 1 12 (← mark? '-' s)
  let (day, s) ← limited? 2 1 31 (← mark? '-' s)
  let leap := year % 4 == 0 && (year % 100 != 0 || year % 400 == 0)
  let last :=
    if month == 2 then (if leap then 29 else 28)
    else if [4, 6, 9, 11].contains month then 30
    else 31
  if day ≤ last then return s else none

/-- Skips a time. -/
def time? (s : List Char) : Option (List Char) := do
  let (_, s) ← limited? 2 0 23 s
  let (_, s) ← limited? 2 0 59 (← mark? ':' s)
  let (_, s) ← limited? 2 0 60 (← mark? ':' s)
  match s with
  | '.' :: c :: rest => if c.isDigit then some (rest.dropWhile Char.isDigit) else none
  | ['.'] => none
  | s => some s

/-- Skips an offset, when there is one. -/
def offset? : List Char → Option (List Char)
  | 'Z' :: rest => some rest
  | 'z' :: rest => some rest
  | c :: rest =>
      if c == '+' || c == '-' then do
        let (_, s) ← limited? 2 0 23 rest
        let (_, s) ← limited? 2 0 59 (← mark? ':' s)
        return s
      else some (c :: rest)
  | [] => some []

/-- A date, a time, or both. Its document is an object of its own kind, which no setting has. -/
def moment? (s : List Char) : Option (Json × List Char) :=
  let document : Json := .obj [("$date", .null)]
  match date? s with
  | some rest =>
      match rest with
      | gap :: after =>
          if (gap == 'T' || gap == 't' || gap == ' ') && (limited? 2 0 23 after).isSome
              && (after.drop 2).head? == some ':' then do
            let rest ← time? after
            let rest ← offset? rest
            return (document, rest)
          else some (document, rest)
      | [] => some (document, [])
  | none => (time? s).map fun rest => (document, rest)

/-- A date, a time or a number. Four digits and a hyphen start a date, two digits and a colon a
time. -/
def number? (s : List Char) : Option (Json × List Char) :=
  let isDate := (limited? 4 0 9999 s).isSome && (s.drop 4).head? == some '-'
  let isTime := (limited? 2 0 23 s).isSome && (s.drop 2).head? == some ':'
  if isDate || isTime then moment? s
  else
    match real? s with
    | some read => some read
    | none => integer? s

end Vetting.Toml
