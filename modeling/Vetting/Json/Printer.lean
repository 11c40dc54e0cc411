import Vetting.Json.Value
import Vetting.Decimal.Shortest
import Vetting.Text.Quoted

/-! Writing documents, on one line or with one field and item per line. Control characters, quotes
and backslashes are escaped; all other characters stand for themselves. -/

namespace Vetting.Json

/-- The written form of one character of a text. -/
def escapeChar (c : Char) : List Char :=
  if c == '"' then ['\\', '"']
  else if c == '\\' then ['\\', '\\']
  else if c == '\n' then ['\\', 'n']
  else if c == '\r' then ['\\', 'r']
  else if c == '\t' then ['\\', 't']
  else if c.toNat == 8 then ['\\', 'b']
  else if c.toNat == 12 then ['\\', 'f']
  else if c.toNat < 0x20 then
    let digits := Text.hexDigits c.toNat
    ['\\', 'u'] ++ List.replicate (4 - digits.length) '0' ++ digits
  else [c]

/-- A text between quotes. -/
def quote (text : String) : String :=
  "\"" ++ String.ofList (text.toList.flatMap escapeChar) ++ "\""

mutual

/-- A document on one line. -/
def compact : Json → String
  | .null => "null"
  | .bool b => if b then "true" else "false"
  | .int n => toString n
  | .real x => Decimal.documentText x
  | .str s => quote s
  | .arr items => "[" ++ ",".intercalate (compactItems items) ++ "]"
  | .obj fields => "\x7b" ++ ",".intercalate (compactFields fields) ++ "\x7d"

/-- The items of an array, each on its own. -/
def compactItems : List Json → List String
  | [] => []
  | item :: rest => compact item :: compactItems rest

/-- The fields of an object, each on its own. -/
def compactFields : List (String × Json) → List String
  | [] => []
  | (name, value) :: rest => (quote name ++ ":" ++ compact value) :: compactFields rest

end

/-- The start of a line at a level of nesting. -/
def margin (level : Nat) : String :=
  String.ofList (List.replicate (2 * level) ' ')

mutual

/-- A document with one field or item per line, at a level of nesting. -/
def prettyAt (level : Nat) : Json → String
  | .arr [] => "[]"
  | .obj [] => "\x7b\x7d"
  | .arr items =>
      "[\n" ++ ",\n".intercalate (prettyItems (level + 1) items) ++ "\n" ++ margin level ++ "]"
  | .obj fields =>
      "\x7b\n" ++ ",\n".intercalate (prettyFields (level + 1) fields) ++ "\n" ++ margin level
        ++ "\x7d"
  | .null => "null"
  | .bool b => if b then "true" else "false"
  | .int n => toString n
  | .real x => Decimal.documentText x
  | .str s => quote s

/-- The items of an array, each on its line. -/
def prettyItems (level : Nat) : List Json → List String
  | [] => []
  | item :: rest => (margin level ++ prettyAt level item) :: prettyItems level rest

/-- The fields of an object, each on its line. -/
def prettyFields (level : Nat) : List (String × Json) → List String
  | [] => []
  | (name, value) :: rest =>
      (margin level ++ quote name ++ ": " ++ prettyAt level value) :: prettyFields level rest

end

/-- A document with one field or item per line. -/
def pretty (doc : Json) : String :=
  prettyAt 0 doc

end Vetting.Json
