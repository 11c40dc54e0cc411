import Vetting.Text.Letters

/-! Texts between double quotes, as they stand in messages. Quotes, backslashes and control
characters are escaped, and so is every character that cannot be seen or that joins the one
before it; all other characters stand for themselves. -/

namespace Vetting.Text

/-- The hexadecimal digits of a number, without leading zeros. -/
def hexDigits (n : Nat) : List Char :=
  Nat.toDigits 16 n

/-- Whether a character is shown by its number: controls, separators other than the space,
unassigned code points and combining marks. -/
def isHidden (c : Char) : Bool :=
  if c.toNat < 128 then c.toNat < 0x20 || c.toNat == 0x7F
  else
    match Category.ofChar c with
    | .cc | .cf | .cs | .co | .cn | .zl | .zp | .zs | .mn | .me => true
    | _ => false

/-- The written form of one character. -/
def escapeChar (c : Char) : List Char :=
  if c == '"' then ['\\', '"']
  else if c == '\\' then ['\\', '\\']
  else if c == '\n' then ['\\', 'n']
  else if c == '\r' then ['\\', 'r']
  else if c == '\t' then ['\\', 't']
  else if c.toNat == 0 then ['\\', '0']
  else if isHidden c then ['\\', 'u', '{'] ++ hexDigits c.toNat ++ ['}']
  else [c]

/-- A text between quotes. -/
def quote (text : String) : String :=
  "\"" ++ String.ofList (text.toList.flatMap escapeChar) ++ "\""

/-- A list of texts between brackets. -/
def quoteList (texts : List String) : String :=
  "[" ++ ", ".intercalate (texts.map quote) ++ "]"

end Vetting.Text
