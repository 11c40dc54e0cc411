import Vetting.Json.Value

/-! The smallest parts of documents of settings: blanks, line ends, comments and texts between
quotes. Every reader gives what it has read and the rest of the document, or nothing when the
document does not go on so. -/

namespace Vetting.Toml

/-- Spaces and tabs. -/
def isGap (c : Char) : Bool :=
  c == ' ' || c == '\t'

/-- Skips spaces and tabs. -/
def skipGap (s : List Char) : List Char :=
  s.dropWhile isGap

/-- What follows a line end. -/
def newline? : List Char → Option (List Char)
  | '\n' :: rest => some rest
  | '\r' :: '\n' :: rest => some rest
  | _ => none

/-- Characters that may stand in comments and in texts without escapes. -/
def isPlain (c : Char) : Bool :=
  c == '\t' || (0x20 ≤ c.toNat && c.toNat != 0x7F)

/-- Skips a comment, when there is one. -/
def skipComment : List Char → List Char
  | '#' :: rest => rest.dropWhile isPlain
  | s => s

/-- What follows the end of a line: blanks and a comment may stand before it, and the end of the
document ends a line. -/
def lineEnd? (s : List Char) : Option (List Char) :=
  match skipComment (skipGap s) with
  | [] => some []
  | rest => newline? rest

/-- Skips blanks, line ends and comments, at most as many as there are characters. -/
def skipLines (s : List Char) : List Char :=
  go s.length s
where
  /-- Skips at most a number of parts. -/
  go : Nat → List Char → List Char
    | 0, s => s
    | count + 1, s =>
        match skipGap s with
        | '#' :: rest => go count (skipComment ('#' :: rest))
        | rest =>
            match newline? rest with
            | some rest => go count rest
            | none => rest

/-- The value of hexadecimal digits. -/
def hexNumber? (digits : List Char) : Option Nat :=
  digits.foldlM (fun n d =>
    if d.isDigit then some (n * 16 + (d.toNat - '0'.toNat))
    else if 'a' ≤ d && d ≤ 'f' then some (n * 16 + (d.toNat - 'a'.toNat + 10))
    else if 'A' ≤ d && d ≤ 'F' then some (n * 16 + (d.toNat - 'A'.toNat + 10))
    else none) 0

/-- The character that a number of hexadecimal digits stand for. -/
def codePoint? (count : Nat) (s : List Char) : Option (Char × List Char) := do
  let digits := s.take count
  if digits.length < count then none
  let n ← hexNumber? digits
  if n.isValidChar then return (Char.ofNat n, s.drop count) else none

/-- The character of an escape, behind the backslash. -/
def escape? : List Char → Option (Char × List Char)
  | 'b' :: rest => some ('\x08', rest)
  | 't' :: rest => some ('\t', rest)
  | 'n' :: rest => some ('\n', rest)
  | 'f' :: rest => some ('\x0c', rest)
  | 'r' :: rest => some ('\r', rest)
  | '"' :: rest => some ('"', rest)
  | '\\' :: rest => some ('\\', rest)
  | 'u' :: rest => codePoint? 4 rest
  | 'U' :: rest => codePoint? 8 rest
  | _ => none

/-- The rest of a text on one line in which escapes stand, at most a number of characters. -/
def basicRest : Nat → List Char → Option (List Char × List Char)
  | 0, _ => none
  | count + 1, s =>
      match s with
      | '"' :: rest => some ([], rest)
      | '\\' :: rest => do
          let (c, rest) ← escape? rest
          let (text, rest) ← basicRest count rest
          return (c :: text, rest)
      | c :: rest =>
          if isPlain c then do
            let (text, rest) ← basicRest count rest
            return (c :: text, rest)
          else none
      | [] => none

/-- The rest of a text on one line without escapes. -/
def literalRest (s : List Char) : Option (List Char × List Char) :=
  let inside (c : Char) := isPlain c && c != '\''
  match s.dropWhile inside with
  | '\'' :: rest => some (s.takeWhile inside, rest)
  | _ => none

/-- The end of a text on several lines: three quotes, before which up to two more belong to the
text. -/
def closing? (quote : Char) (s : List Char) : Option (List Char × List Char) :=
  let quotes := s.takeWhile (· == quote)
  if 3 ≤ quotes.length then
    let count := min quotes.length 5
    some (List.replicate (count - 3) quote, s.drop count)
  else none

/-- What follows a backslash at the end of a line: line ends and blanks are skipped. -/
def continued? (s : List Char) : Option (List Char) := do
  let rest ← newline? (skipGap s)
  return skipBreaks rest.length rest
where
  /-- Skips at most a number of line ends. -/
  skipBreaks : Nat → List Char → List Char
    | 0, s => s
    | count + 1, s =>
        match newline? (skipGap s) with
        | some rest => skipBreaks count rest
        | none => skipGap s

/-- The rest of a text on several lines in which escapes stand. -/
def basicLines : Nat → List Char → Option (List Char × List Char)
  | 0, _ => none
  | count + 1, s =>
      match closing? '"' s with
      | some (quotes, rest) => some (quotes, rest)
      | none =>
          match s with
          | '\\' :: rest =>
              match continued? rest with
              | some rest => basicLines count rest
              | none => do
                  let (c, rest) ← escape? rest
                  let (text, rest) ← basicLines count rest
                  return (c :: text, rest)
          | c :: rest =>
              match newline? s with
              | some after => do
                  let (text, rest) ← basicLines count after
                  return ('\n' :: text, rest)
              | none =>
                  if isPlain c then do
                    let (text, rest) ← basicLines count rest
                    return (c :: text, rest)
                  else none
          | [] => none

/-- The rest of a text on several lines without escapes. -/
def literalLines : Nat → List Char → Option (List Char × List Char)
  | 0, _ => none
  | count + 1, s =>
      match closing? '\'' s with
      | some (quotes, rest) => some (quotes, rest)
      | none =>
          match newline? s, s with
          | some after, _ => do
              let (text, rest) ← literalLines count after
              return ('\n' :: text, rest)
          | none, c :: rest =>
              if isPlain c then do
                let (text, rest) ← literalLines count rest
                return (c :: text, rest)
              else none
          | none, [] => none

/-- Drops a line end right behind the quotes that open a text on several lines. -/
def dropFirstLine (s : List Char) : List Char :=
  (newline? s).getD s

/-- A text between quotes of either kind, on one line. -/
def quoted? : List Char → Option (List Char × List Char)
  | '"' :: rest => basicRest (rest.length + 1) rest
  | '\'' :: rest => literalRest rest
  | _ => none

/-- A text between quotes of any kind. -/
def text? : List Char → Option (List Char × List Char)
  | '"' :: '"' :: '"' :: rest =>
      let rest := dropFirstLine rest
      basicLines (rest.length + 1) rest
  | '\'' :: '\'' :: '\'' :: rest =>
      let rest := dropFirstLine rest
      literalLines (rest.length + 1) rest
  | s => quoted? s

end Vetting.Toml
