import Vetting.Json.Value

/-! Reading documents. Blanks between tokens are spaces, tabs and line ends; a document nests at most
127 levels deep; a number without point and exponent is a whole number as long as it fits into 64
bits, and any other number is the double next to its digits, scaled by a power of ten. -/

namespace Vetting.Json

/-- The deepest nesting that is read. -/
def maxDepth : Nat := 127

/-- Blanks between tokens. -/
def isGap (c : Char) : Bool :=
  c == ' ' || c == '\t' || c == '\n' || c == '\r'

/-- Drops the blanks in front of a token. -/
def skipGap (s : List Char) : List Char :=
  s.dropWhile isGap

/-- Drops an expected word from the front. -/
def expect? (word : String) (s : List Char) : Option (List Char) :=
  if word.toList.isPrefixOf s then some (s.drop word.length) else none

/-- The value of a hexadecimal digit. -/
def hexValue? (c : Char) : Option Nat :=
  if c.isDigit then some (c.toNat - '0'.toNat)
  else if 'a' ≤ c ∧ c ≤ 'f' then some (c.toNat - 'a'.toNat + 10)
  else if 'A' ≤ c ∧ c ≤ 'F' then some (c.toNat - 'A'.toNat + 10)
  else none

/-- The value of four hexadecimal digits and the text after them. -/
def hexFour? : List Char → Option (Nat × List Char)
  | a :: b :: c :: d :: rest => do
      let a ← hexValue? a
      let b ← hexValue? b
      let c ← hexValue? c
      let d ← hexValue? d
      return (((a * 16 + b) * 16 + c) * 16 + d, rest)
  | _ => none

/-- The character of an escape whose backslash has been read, and the text after it. A character
outside the basic plane is written as a pair of surrogates; a lone surrogate is refused. -/
def escape? : List Char → Option (Char × List Char)
  | '"' :: rest => some ('"', rest)
  | '\\' :: rest => some ('\\', rest)
  | '/' :: rest => some ('/', rest)
  | 'b' :: rest => some ('\x08', rest)
  | 'f' :: rest => some ('\x0c', rest)
  | 'n' :: rest => some ('\n', rest)
  | 'r' :: rest => some ('\r', rest)
  | 't' :: rest => some ('\t', rest)
  | 'u' :: rest => do
      let (high, rest) ← hexFour? rest
      if 0xDC00 ≤ high ∧ high ≤ 0xDFFF then none
      else if 0xD800 ≤ high ∧ high ≤ 0xDBFF then
        match rest with
        | '\\' :: 'u' :: rest => do
            let (low, rest) ← hexFour? rest
            if 0xDC00 ≤ low ∧ low ≤ 0xDFFF then
              return (Char.ofNat (0x10000 + (high - 0xD800) * 0x400 + (low - 0xDC00)), rest)
            else none
        | _ => none
      else return (Char.ofNat high, rest)
  | _ => none

/-- The rest of a text after its opening quote; `steps` bounds the number of characters. -/
def text? : Nat → List Char → List Char → Option (String × List Char)
  | 0, _, _ => none
  | steps + 1, s, acc =>
      match s with
      | [] => none
      | '"' :: rest => some (String.ofList acc.reverse, rest)
      | '\\' :: rest => do
          let (c, rest) ← escape? rest
          text? steps rest (c :: acc)
      | c :: rest => if c.toNat < 0x20 then none else text? steps rest (c :: acc)

/-- The largest whole number that digits are collected to before further ones are dropped. -/
def maxWord : Nat := UInt64.size - 1

/-- Collects digits as long as the number fits into a word; the second number counts those that
were dropped. -/
def collect : List Char → Nat → Nat → Nat × Nat
  | [], n, dropped => (n, dropped)
  | d :: rest, n, dropped =>
      let next := n * 10 + (d.toNat - '0'.toNat)
      if dropped = 0 ∧ next ≤ maxWord then collect rest next 0
      else collect rest n (dropped + 1)

/-- Scales the double next to a whole number by a power of ten, 308 places at a time; none when the
result is too large. `steps` bounds the number of scalings. -/
def scale? : Nat → Float → Int → Option Float
  | 0, x, _ => some x
  | steps + 1, x, exponent =>
      if exponent.natAbs ≤ 308 then
        let power := Float.ofScientific 1 false exponent.natAbs
        if 0 ≤ exponent then
          let scaled := x * power
          if scaled.isInf then none else some scaled
        else some (x / power)
      else if x == 0.0 then some x
      else if 0 ≤ exponent then none
      else scale? steps (x / 1e308) (exponent + 308)

/-- The double that digits and an exponent stand for. -/
def real? (negative : Bool) (digits : Nat) (exponent : Int) : Option Json :=
  let limit : Int := 100000
  let exponent := max (-limit) (min limit exponent)
  (scale? 400 (Float.ofNat digits) exponent).map fun x => .real (if negative then -x else x)

/-- The signed exponent after its letter, and the text after it. -/
def exponent? (s : List Char) : Option (Int × List Char) :=
  let (negative, s) :=
    match s with
    | '+' :: rest => (false, rest)
    | '-' :: rest => (true, rest)
    | _ => (false, s)
  let digits := s.takeWhile Char.isDigit
  if digits.isEmpty then none
  else
    let n : Nat := digits.foldl (fun n d => min (n * 10 + (d.toNat - '0'.toNat)) 1000000) 0
    some (if negative then -(n : Int) else n, s.dropWhile Char.isDigit)

/-- A number and the text after it. -/
def number (s : List Char) : Option (Json × List Char) :=
  let (negative, s) :=
    match s with
    | '-' :: rest => (true, rest)
    | _ => (false, s)
  let whole := s.takeWhile Char.isDigit
  let rest := s.dropWhile Char.isDigit
  if whole.isEmpty || (1 < whole.length && whole.head? == some '0') then none
  else
    let (n, dropped) := collect whole 0 0
    match rest with
    | '.' :: rest =>
        let places := rest.takeWhile Char.isDigit
        let rest := rest.dropWhile Char.isDigit
        if places.isEmpty then none
        else
          let (n, unread) :=
            if dropped = 0 then collect places n 0 else (n, places.length)
          let base : Int := (dropped : Int) - ((places.length - unread : Nat) : Int)
          match rest with
          | 'e' :: rest | 'E' :: rest => do
              let (e, rest) ← exponent? rest
              return (← real? negative n (base + e), rest)
          | _ => (real? negative n base).map (·, rest)
    | 'e' :: rest | 'E' :: rest => do
        let (e, rest) ← exponent? rest
        return (← real? negative n (dropped + e), rest)
    | _ =>
        if 0 < dropped then (real? negative n dropped).map (·, rest)
        else if negative then
          if n = 0 then some (.real (-0.0), rest)
          else if n ≤ UInt64.size / 2 then some (.int (-(n : Int)), rest)
          else (real? true n 0).map (·, rest)
        else some (.int n, rest)

mutual

/-- A value and the text after it, nested at most `depth` levels deep; `steps` bounds the number of
tokens. -/
def value? : Nat → Nat → List Char → Option (Json × List Char)
  | 0, _, _ => none
  | steps + 1, depth, s =>
      match skipGap s with
      | 'n' :: rest => (expect? "ull" rest).map (.null, ·)
      | 't' :: rest => (expect? "rue" rest).map (.bool true, ·)
      | 'f' :: rest => (expect? "alse" rest).map (.bool false, ·)
      | '"' :: rest => (text? (rest.length + 1) rest []).map fun r => (.str r.1, r.2)
      | '[' :: rest =>
          if depth = 0 then none
          else
            match skipGap rest with
            | ']' :: rest => some (.arr [], rest)
            | rest => itemsFrom? steps (depth - 1) rest []
      | '\x7b' :: rest =>
          if depth = 0 then none
          else
            match skipGap rest with
            | '\x7d' :: rest => some (.obj [], rest)
            | rest => fieldsFrom? steps (depth - 1) rest []
      | s => number s

/-- The items of an array up to its end. -/
def itemsFrom? : Nat → Nat → List Char → List Json → Option (Json × List Char)
  | 0, _, _, _ => none
  | steps + 1, depth, s, acc => do
      let (item, rest) ← value? steps depth s
      match skipGap rest with
      | ',' :: rest => itemsFrom? steps depth rest (item :: acc)
      | ']' :: rest => some (.arr (item :: acc).reverse, rest)
      | _ => none

/-- The fields of an object up to its end. -/
def fieldsFrom? : Nat → Nat → List Char → List (String × Json) → Option (Json × List Char)
  | 0, _, _, _ => none
  | steps + 1, depth, s, acc =>
      match skipGap s with
      | '"' :: rest => do
          let (name, rest) ← text? (rest.length + 1) rest []
          match skipGap rest with
          | ':' :: rest => do
              let (value, rest) ← value? steps depth rest
              match skipGap rest with
              | ',' :: rest => fieldsFrom? steps depth rest ((name, value) :: acc)
              | '\x7d' :: rest => some (.obj ((name, value) :: acc).reverse, rest)
              | _ => none
          | _ => none
      | _ => none

end

/-- Reads a whole text as one document. -/
def parse? (text : String) : Option Json :=
  let s := text.toList
  match value? (2 * s.length + 2) maxDepth s with
  | some (doc, rest) => if (skipGap rest).isEmpty then some doc else none
  | none => none

end Vetting.Json
