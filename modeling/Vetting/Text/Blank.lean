/-! Blank characters and trimming. A trimmed text is the text without the longest blank run at
either end, so a text is empty after trimming exactly when all its characters are blank. -/

namespace Vetting.Text

/-- The characters with the White_Space property. -/
def isBlank (c : Char) : Bool :=
  let n := c.toNat
  (9 ≤ n && n ≤ 13) || n == 0x20 || n == 0x85 || n == 0xA0 || n == 0x1680
    || (0x2000 ≤ n && n ≤ 0x200A) || n == 0x2028 || n == 0x2029 || n == 0x202F
    || n == 0x205F || n == 0x3000

/-- Drops the blank characters at the front. -/
def trimStart (s : List Char) : List Char :=
  s.dropWhile isBlank

/-- Drops the blank characters at the back. -/
def trimEnd (s : List Char) : List Char :=
  (s.reverse.dropWhile isBlank).reverse

/-- Drops the blank characters at both ends. -/
def trim (s : List Char) : List Char :=
  trimEnd (trimStart s)

/-- A text is blank when every character of it is. -/
def allBlank (s : List Char) : Bool :=
  s.all isBlank

/-- Trimming a string. -/
def trimString (s : String) : String :=
  String.ofList (trim s.toList)

end Vetting.Text
