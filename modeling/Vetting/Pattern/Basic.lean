import Vetting.Text.Blank
import Vetting.Text.Letters

/-! Patterns over texts: one character of a class, a condition on the two neighbours of a place,
sequence, choice, repetition and numbered groups. Where several matches start at one place they are
ordered: the first alternative comes before the second, and a greedy repetition tries more rounds
before fewer. -/

namespace Vetting

/-- A pattern. -/
inductive Pattern where
  /-- Matches the empty text. -/
  | empty
  /-- Matches one character of a class. -/
  | one (member : Char → Bool)
  /-- Matches the empty text where the characters before and after satisfy a condition; there is no
  character before the start and after the end of the text. -/
  | look (condition : Option Char → Option Char → Bool)
  /-- Matches one pattern after another. -/
  | seq (first second : Pattern)
  /-- Matches one pattern or another. -/
  | alt (first second : Pattern)
  /-- Matches a pattern at least `least` times, and at most `most` times where that is given. -/
  | rep (greedy : Bool) (least : Nat) (most : Option Nat) (body : Pattern)
  /-- Matches a pattern and remembers what it matched. -/
  | group (index : Nat) (body : Pattern)
  deriving Inhabited

namespace Pattern

/-- A character. -/
def char (c : Char) : Pattern :=
  one (· == c)

/-- One pattern after another, from a list. -/
def sequence : List Pattern → Pattern
  | [] => empty
  | [p] => p
  | p :: rest => seq p (sequence rest)

/-- One of the patterns of a list. -/
def choice : List Pattern → Pattern
  | [] => one fun _ => false
  | [p] => p
  | p :: rest => alt p (choice rest)

/-- The characters of a text, one after another. -/
def word (text : String) : Pattern :=
  sequence (text.toList.map char)

/-- As many rounds as possible, possibly none. -/
def zeroOrMore (p : Pattern) : Pattern :=
  rep true 0 none p

/-- As many rounds as possible, at least one. -/
def oneOrMore (p : Pattern) : Pattern :=
  rep true 1 none p

/-- One round if possible. -/
def optional (p : Pattern) : Pattern :=
  rep true 0 (some 1) p

/-- The start of the text or of a line. -/
def lineStart : Pattern :=
  look fun before _ => before.all (· == '\n')

/-- Blanks between words. -/
def gap : Pattern := oneOrMore (one Text.isBlank)

/-- Blanks that may be missing. -/
def maybeGap : Pattern := zeroOrMore (one Text.isBlank)

/-- A word. -/
def name : Pattern := oneOrMore (one Text.isWordChar)

end Pattern

end Vetting
