import Vetting.Text.Blank
import Vetting.Text.Letters
import Vetting.Text.WritingSystem

/-! Classes of characters that patterns name: the classes of digits, blanks and word characters,
the classes of ASCII, and the properties of characters. Names of properties are compared without
regard to case, blanks, hyphens, underscores and a leading `is`.

Only some of the properties have a class here, and a pattern that asks for another one is taken to
be malformed. The general categories are all there. Of the properties that are either there or not,
those of `binaryClass?` are; the rest are left out, such as `Emoji`, `Math`, `Dash`, `Cased`,
`Ideographic`, `Hex_Digit`, `ID_Start` and `XID_Start`. Of the writing systems, those of
`writingSystems` are there and others such as `Tamil` are left out; the scripts to which a character
is extended are not told from its own. The properties with other values, `Age` and the breaks
between graphemes, words and sentences, are left out.

The room that a class takes in a pattern depends on how its bytes are matched, which is not
described here; it is estimated when the class is read. -/

namespace Vetting.Pattern

open Vetting.Text

/-- A class of characters. -/
abbrev CharClass := Char → Bool

/-- All characters that fold to the same character as the given one. -/
def caseVariants (c : Char) : List Char :=
  let folded := foldCase c
  let target : Int := folded.toNat
  let candidates := (lowerShifts.toList ++ foldShifts.toList).filterMap fun s =>
    let n := (target - s.delta).toNat
    if s.first ≤ n && n ≤ s.last && (n - s.first) % s.step == 0 then some (Char.ofNat n) else none
  let ascii := if folded.toNat < 128 then [folded.toUpper] else []
  folded :: c :: ascii ++ candidates.filter fun d => foldCase d == folded

/-- The characters that differ from a member of a class at most in case. -/
def ignoreCase (cls : CharClass) : CharClass :=
  fun c => cls c || (caseVariants c).any cls

/-- The same within ASCII. -/
def ignoreAsciiCase (cls : CharClass) : CharClass :=
  fun c => cls c || cls c.toLower || cls c.toUpper

/-- The classes of ASCII that have a name. -/
def asciiClass? (name : String) : Option CharClass :=
  match name with
  | "alnum" => some Char.isAlphanum
  | "alpha" => some Char.isAlpha
  | "ascii" => some fun c => c.toNat < 128
  | "blank" => some fun c => c == ' ' || c == '\t'
  | "cntrl" => some fun c => c.toNat < 32 || c.toNat == 127
  | "digit" => some Char.isDigit
  | "graph" => some fun c => '!' ≤ c && c ≤ '~'
  | "lower" => some Char.isLower
  | "print" => some fun c => ' ' ≤ c && c ≤ '~'
  | "punct" => some fun c => '!' ≤ c && c ≤ '~' && !c.isAlphanum
  | "space" => some isAsciiBlank
  | "upper" => some Char.isUpper
  | "word" => some fun c => c.isAlphanum || c == '_'
  | "xdigit" => some isHexDigit
  | _ => none
where
  /-- Blanks within ASCII. -/
  isAsciiBlank (c : Char) : Bool := c == ' ' || ('\t' ≤ c && c ≤ '\r')
  /-- Hexadecimal digits. -/
  isHexDigit (c : Char) : Bool := c.isDigit || ('a' ≤ c && c ≤ 'f') || ('A' ≤ c && c ≤ 'F')

/-- A name of a property in the form in which names are compared. -/
def looseName (name : String) : String :=
  let kept := (name.toList.filter fun c => !isBlank c && c != '-' && c != '_').map Char.toLower
  match kept with
  | 'i' :: 's' :: rest => if rest == ['c'] then "isc" else String.ofList rest
  | _ => String.ofList kept

/-- The names and abbreviations of the general categories. -/
def categoryNames : List (String × String × List Category) := [
  ("l", "letter", [.lu, .ll, .lt, .lm, .lo]), ("lc", "casedletter", [.lu, .ll, .lt]),
  ("lu", "uppercaseletter", [.lu]), ("ll", "lowercaseletter", [.ll]),
  ("lt", "titlecaseletter", [.lt]), ("lm", "modifierletter", [.lm]), ("lo", "otherletter", [.lo]),
  ("m", "mark", [.mn, .mc, .me]), ("m", "combiningmark", [.mn, .mc, .me]),
  ("mn", "nonspacingmark", [.mn]), ("mc", "spacingmark", [.mc]), ("me", "enclosingmark", [.me]),
  ("n", "number", [.nd, .nl, .no]), ("nd", "decimalnumber", [.nd]), ("nd", "digit", [.nd]),
  ("nl", "letternumber", [.nl]), ("no", "othernumber", [.no]),
  ("p", "punctuation", [.pc, .pd, .ps, .pe, .pi, .pf, .po]),
  ("p", "punct", [.pc, .pd, .ps, .pe, .pi, .pf, .po]), ("pc", "connectorpunctuation", [.pc]),
  ("pd", "dashpunctuation", [.pd]), ("ps", "openpunctuation", [.ps]),
  ("pe", "closepunctuation", [.pe]), ("pi", "initialpunctuation", [.pi]),
  ("pf", "finalpunctuation", [.pf]), ("po", "otherpunctuation", [.po]),
  ("s", "symbol", [.sm, .sc, .sk, .so]), ("sm", "mathsymbol", [.sm]),
  ("sc", "currencysymbol", [.sc]), ("sk", "modifiersymbol", [.sk]), ("so", "othersymbol", [.so]),
  ("z", "separator", [.zs, .zl, .zp]), ("zs", "spaceseparator", [.zs]),
  ("zl", "lineseparator", [.zl]), ("zp", "paragraphseparator", [.zp]),
  ("c", "other", [.cc, .cf, .cs, .co, .cn]), ("cc", "control", [.cc]), ("cc", "cntrl", [.cc]),
  ("cf", "format", [.cf]), ("cs", "surrogate", [.cs]), ("co", "privateuse", [.co]),
  ("cn", "unassigned", [.cn])]

/-- The characters of a general category. -/
def categoryClass? (name : String) : Option CharClass :=
  match name with
  | "any" => some fun _ => true
  | "ascii" => some fun c => c.toNat < 128
  | "assigned" => some fun c => Category.ofChar c != .cn
  | _ =>
      (categoryNames.find? fun entry => entry.1 == name || entry.2.1 == name).map
        fun entry c => entry.2.2.contains (Category.ofChar c)

/-- The characters of a writing system. -/
def systemClass? (name : String) : Option CharClass :=
  (writingSystem? name).map CodeRange.contain

/-- The characters with a property that is either there or not. -/
def binaryClass? (name : String) : Option CharClass :=
  match name with
  | "alphabetic" | "alpha" => some fun c =>
      (Category.ofChar c).isLetter || Category.ofChar c == .nl || isEnclosedLetter c.toNat
  | "uppercase" | "upper" => some isUpper
  | "lowercase" | "lower" => some fun c =>
      Category.ofChar c == .ll || [0xAA, 0xBA].contains c.toNat
        || (0x2B0 ≤ c.toNat && c.toNat ≤ 0x2B8) || (0x2170 ≤ c.toNat && c.toNat ≤ 0x217F)
        || (0x24D0 ≤ c.toNat && c.toNat ≤ 0x24E9)
  | "whitespace" | "wspace" | "space" => some isBlank
  | "asciihexdigit" | "ahex" => asciiClass? "xdigit"
  | _ => none

/-- The characters with a property, asked for by its name alone. -/
def propertyClass? (name : String) : Option CharClass :=
  let name := looseName name
  (binaryClass? name).or ((categoryClass? name).or (systemClass? name))

/-- The characters for which a property has a value. -/
def valueClass? (property value : String) : Option CharClass :=
  match looseName property with
  | "gc" | "generalcategory" => categoryClass? (looseName value)
  | "sc" | "script" | "scx" | "scriptextensions" => systemClass? (looseName value)
  | _ => none

end Vetting.Pattern
