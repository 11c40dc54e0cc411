import Vetting.Text.Blank

/-! Searching, counting and splitting texts held as lists of characters. A text contains a needle when
the needle starts at one of its suffixes; brackets balance when there are equally many of both kinds;
lines end at a line feed, with an optional carriage return before it, and a last empty line does not
count. -/

namespace Vetting.Text

/-- Whether the needle starts at some position of the text. -/
def contains : List Char → List Char → Bool
  | [], needle => needle.isEmpty
  | c :: rest, needle => needle.isPrefixOf (c :: rest) || contains rest needle

/-- Whether one of the needles occurs in the text. -/
def containsAny (text : List Char) (needles : List String) : Bool :=
  needles.any (fun needle => contains text needle.toList)

/-- Whether a string occurs in the text. -/
def has (text : List Char) (needle : String) : Bool :=
  contains text needle.toList

/-- Whether a text starts with a string. -/
def startsWith (text : List Char) (start : String) : Bool :=
  start.toList.isPrefixOf text

/-- The text behind a string that it starts with. -/
def afterStart? (start : String) (text : List Char) : Option (List Char) :=
  if startsWith text start then some (text.drop start.length) else none

/-- The number of occurrences of a character. -/
def countChar (text : List Char) (c : Char) : Nat :=
  text.countP (· == c)

/-- Equally many braces of both kinds. -/
def bracesBalanced (text : List Char) : Bool :=
  countChar text '\x7b' == countChar text '\x7d'

/-- Equally many braces, square brackets and parentheses of both kinds. -/
def bracketsBalanced (text : List Char) : Bool :=
  bracesBalanced text && countChar text '[' == countChar text ']'
    && countChar text '(' == countChar text ')'

/-- The text before and after the first occurrence of a needle. -/
def splitOnce? (needle : List Char) : List Char → Option (List Char × List Char)
  | [] => if needle.isEmpty then some ([], []) else none
  | c :: rest =>
      if needle.isPrefixOf (c :: rest) then some ([], (c :: rest).drop needle.length)
      else (splitOnce? needle rest).map (fun parts => (c :: parts.1, parts.2))

/-- The pieces between the occurrences of a separating character, empty ones included. -/
def splitChar (sep : Char) : List Char → List (List Char)
  | [] => [[]]
  | c :: rest =>
      if c == sep then [] :: splitChar sep rest
      else
        match splitChar sep rest with
        | [] => [[c]]
        | piece :: pieces => (c :: piece) :: pieces

/-- Drops one carriage return at the end. -/
def dropReturn (line : List Char) : List Char :=
  if line.getLast? == some '\r' then line.dropLast else line

/-- The lines of a text, without their line ends. -/
def lines (text : List Char) : List (List Char) :=
  let pieces := splitChar '\n' text
  let last := pieces.getLastD []
  let closed := pieces.dropLast.map dropReturn
  if last.isEmpty then closed else closed ++ [last]

/-- The words between runs of blank characters. -/
def words (text : List Char) : List (List Char) :=
  (go text []).filter (fun word => !word.isEmpty)
where
  /-- Collects the current word, last character first. -/
  go : List Char → List Char → List (List Char)
    | [], word => [word.reverse]
    | c :: rest, word =>
        if isBlank c then word.reverse :: go rest [] else go rest (c :: word)

/-- The number of bytes of the text in UTF-8. -/
def byteLength (text : List Char) : Nat :=
  (text.map Char.utf8Size).foldl (· + ·) 0

/-- Joins texts with a separator between them. -/
def joinWith (sep : String) (parts : List String) : String :=
  sep.intercalate parts

end Vetting.Text
