import Vetting.Text.Search

/-! Points in time, by the calendar and the clock at the zero meridian. A timestamp is written as
date, time and a letter for the meridian; it is read in any offset from it, and with blanks where
the parts meet. -/

namespace Vetting

/-- A point in time. A second that is inserted into the clock is the sixty-first of its minute. -/
structure Timestamp where
  year : Int
  month : Nat
  day : Nat
  hour : Nat
  minute : Nat
  second : Nat
  nanosecond : Nat
  deriving DecidableEq, Repr, Inhabited

namespace Timestamp

/-- Whether a year has a day more than others. -/
def isLeap (year : Int) : Bool :=
  year % 4 == 0 && (year % 100 != 0 || year % 400 == 0)

/-- The number of days of a month. -/
def daysIn (year : Int) (month : Nat) : Nat :=
  if month == 2 then (if isLeap year then 29 else 28)
  else if month == 4 || month == 6 || month == 9 || month == 11 then 30
  else 31

/-- The first year that the calendar has. -/
def firstYear : Int := -262143

/-- The last year that the calendar has. -/
def lastYear : Int := 262142

/-- Whether the fields of a timestamp are those of a point in time. -/
def isValid (t : Timestamp) : Bool :=
  firstYear ≤ t.year && t.year ≤ lastYear && 1 ≤ t.month && t.month ≤ 12 && 1 ≤ t.day
    && t.day ≤ daysIn t.year t.month && t.hour < 24 && t.minute < 60 && t.second ≤ 60
    && t.nanosecond < 1000000000

/-- The same time on the day before. -/
def dayBefore (t : Timestamp) : Timestamp :=
  if 1 < t.day then { t with day := t.day - 1 }
  else if 1 < t.month then
    { t with month := t.month - 1, day := daysIn t.year (t.month - 1) }
  else { t with year := t.year - 1, month := 12, day := 31 }

/-- The same time on the day after. -/
def dayAfter (t : Timestamp) : Timestamp :=
  if t.day < daysIn t.year t.month then { t with day := t.day + 1 }
  else if t.month < 12 then { t with month := t.month + 1, day := 1 }
  else { t with year := t.year + 1, month := 1, day := 1 }

/-- The minutes of a day. -/
def minutesPerDay : Int := 1440

/-- The point in time at which clocks that are a number of minutes ahead show a time; the number is
less than those of a day. -/
def behind (t : Timestamp) (ahead : Int) : Timestamp :=
  let minutes := t.hour * 60 + t.minute - ahead
  let atMinute (t : Timestamp) (n : Int) : Timestamp :=
    { t with hour := n.toNat / 60, minute := n.toNat % 60 }
  if minutes < 0 then atMinute t.dayBefore (minutes + minutesPerDay)
  else if minutesPerDay ≤ minutes then atMinute t.dayAfter (minutes - minutesPerDay)
  else atMinute t minutes

/-- The point in time at which so many seconds have passed since the year 1970 began. -/
def ofClock (seconds nanosecond : Nat) : Timestamp :=
  let day := Nat.repeat dayAfter (seconds / 86400) ⟨1970, 1, 1, 0, 0, 0, 0⟩
  { day with
    hour := seconds % 86400 / 3600
    minute := seconds % 3600 / 60
    second := seconds % 60
    nanosecond := nanosecond }

/-! Writing -/

/-- The decimal digits of a number, with zeros in front up to a width. -/
def padded (width n : Nat) : String :=
  let digits := toString n
  String.ofList (List.replicate (width - digits.length) '0') ++ digits

/-- A year has four digits; those before and after these years have a sign. -/
def yearText (year : Int) : String :=
  if 0 ≤ year && year ≤ 9999 then padded 4 year.toNat
  else if year < 0 then "-" ++ padded 4 year.natAbs
  else "+" ++ padded 4 year.natAbs

/-- The fraction of a second, in as few groups of three digits as it needs. -/
def fractionText (nanosecond : Nat) : String :=
  if nanosecond == 0 then ""
  else if nanosecond % 1000000 == 0 then "." ++ padded 3 (nanosecond / 1000000)
  else if nanosecond % 1000 == 0 then "." ++ padded 6 (nanosecond / 1000)
  else "." ++ padded 9 nanosecond

/-- The text of a timestamp. -/
def text (t : Timestamp) : String :=
  yearText t.year ++ "-" ++ padded 2 t.month ++ "-" ++ padded 2 t.day ++ "T" ++
    padded 2 t.hour ++ ":" ++ padded 2 t.minute ++ ":" ++ padded 2 t.second ++
    fractionText t.nanosecond ++ "Z"

/-! Reading -/

/-- The value of decimal digits. -/
def digitsValue (digits : List Char) : Nat :=
  digits.foldl (fun n d => n * 10 + (d.toNat - '0'.toNat)) 0

/-- The text behind blanks. -/
def skipBlanks (s : List Char) : List Char :=
  s.dropWhile Text.isBlank

/-- A number of at least one and at most some digits, and what follows it. -/
def number? (most : Nat) (s : List Char) : Option (Nat × List Char) :=
  match (s.take most).takeWhile Char.isDigit with
  | [] => none
  | digits => some (digitsValue digits, s.drop digits.length)

/-- A number behind blanks. -/
def field? (most : Nat) (s : List Char) : Option (Nat × List Char) :=
  number? most (skipBlanks s)

/-- A year: four digits at most, or a sign and any digits. -/
def year? (s : List Char) : Option (Int × List Char) :=
  match skipBlanks s with
  | '-' :: rest => (number? rest.length rest).map fun r => (-(r.1 : Int), r.2)
  | '+' :: rest => (number? rest.length rest).map fun r => ((r.1 : Int), r.2)
  | s => (number? 4 s).map fun r => ((r.1 : Int), r.2)

/-- What follows a mark behind blanks. -/
def mark? (c : Char) (s : List Char) : Option (List Char) :=
  match skipBlanks s with
  | first :: rest => if first == c then some rest else none
  | [] => none

/-- The fraction of a second, when there is one. Digits after the ninth are skipped. -/
def fraction? (s : List Char) : Option (Nat × List Char) :=
  match s with
  | '.' :: rest =>
      match (rest.take 9).takeWhile Char.isDigit with
      | [] => none
      | digits =>
          some (digitsValue digits * Nat.pow 10 (9 - digits.length), rest.dropWhile Char.isDigit)
  | _ => some (0, s)

/-- An offset from the meridian in minutes: a letter, or a sign, two digits for hours and two for
minutes. -/
def offset? (s : List Char) : Option (Int × List Char) :=
  match s with
  | 'Z' :: rest => some (0, rest)
  | 'z' :: rest => some (0, rest)
  | sign :: h :: h' :: rest => do
      let negative ←
        if sign == '+' then some false
        else if sign == '-' || sign == '\u2212' then some true
        else none
      if !(h.isDigit && h'.isDigit) then none
      let m :: m' :: after := rest.dropWhile fun c => c == ':' || Text.isBlank c | none
      if !(m.isDigit && m'.isDigit && m.toNat < '6'.toNat) then none
      let minutes : Int := digitsValue [h, h'] * 60 + digitsValue [m, m']
      return (if negative then -minutes else minutes, after)
  | _ => none

/-- The offset at the end of a timestamp, which may also be the name of the meridian's time. -/
def zone? (s : List Char) : Option (Int × List Char) :=
  match s with
  | u :: t :: c :: rest =>
      if [u, t, c].map Char.toUpper == "UTC".toList then some (0, rest) else offset? s
  | _ => offset? s

/-- Reads a timestamp. -/
def parse? (written : String) : Option Timestamp := do
  let (year, s) ← year? written.toList
  let (month, s) ← field? 2 (← mark? '-' s)
  let (day, s) ← field? 2 (← mark? '-' s)
  let gap :: s := s | none
  if !(gap == 'T' || gap == 't' || gap == ' ') then none
  let (hour, s) ← field? 2 s
  let (minute, s) ← field? 2 (← mark? ':' s)
  let (second, s) ← field? 2 (← mark? ':' s)
  let (nanosecond, s) ← fraction? s
  let (ahead, s) ← zone? (skipBlanks s)
  if !Text.allBlank s then none
  let shown : Timestamp := ⟨year, month, day, hour, minute, second, nanosecond⟩
  if !shown.isValid || minutesPerDay ≤ ahead.natAbs then none
  let point := shown.behind ahead
  if point.isValid then return point else none

end Timestamp

end Vetting
