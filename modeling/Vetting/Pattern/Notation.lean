import Vetting.Pattern.Class
import Vetting.Pattern.Basic

/-! The pieces from which a written pattern is put together: how it is to be read (its modes), what
a piece means, how deep it is nested and how much room it takes, and why a text is no pattern. The
room is an estimate: a pattern near the limit may be counted on the other side of it. -/

namespace Vetting.Pattern

open Vetting.Text

/-- Why a text cannot be used as a pattern. -/
inductive Fault where
  /-- It breaks the rules of notation. -/
  | malformed
  /-- It takes more room than patterns are given. -/
  | tooLarge
  deriving DecidableEq, Repr

/-- The room that patterns are given, in bytes. -/
def sizeLimit : Nat := 10485760

/-- The deepest nesting that is read. -/
def nestLimit : Nat := 250

/-- The wording of a fault. -/
def Fault.message : Fault → String
  | malformed => "regex parse error:"
  | tooLarge => "Compiled regex exceeds size limit of " ++ toString sizeLimit ++ " bytes."

/-- How a pattern is read. -/
structure Mode where
  /-- Letters match in either case. -/
  ignoresCase : Bool
  /-- Line anchors match at every line. -/
  multiLine : Bool
  /-- The dot matches line ends too. -/
  dotAll : Bool
  /-- Repetitions are lazy unless marked. -/
  swapsGreed : Bool
  /-- Classes hold characters of every script. -/
  wide : Bool
  /-- A carriage return ends a line too. -/
  crlf : Bool
  /-- Blanks and comments are skipped. -/
  verbose : Bool

/-- How a pattern is read at its start. -/
def Mode.initial : Mode :=
  ⟨false, false, false, false, true, false, false⟩

/-- A part of a pattern. -/
structure Piece where
  pattern : Pattern
  /-- How many levels of structure it has. -/
  depth : Nat
  /-- The room that it is estimated to take, in bytes. -/
  room : Nat
  /-- It can match the empty text only. -/
  hollow : Bool

namespace Piece

/-- A part that matches one character. -/
def ofClass (cls : CharClass) (room : Nat) : Piece :=
  ⟨.one cls, 0, room, false⟩

/-- A part that looks at the neighbours of a place. -/
def ofLook (condition : Option Char → Option Char → Bool) : Piece :=
  ⟨.look condition, 0, 32, true⟩

/-- The part without content. -/
def nothing : Piece :=
  ⟨.empty, 0, 0, true⟩

/-- Parts in a row; a single part is not nested further. -/
def inRow (items : List Piece) : Piece :=
  match items with
  | [] => nothing
  | [item] => item
  | items =>
      ⟨.sequence (items.map Piece.pattern), (items.map Piece.depth).foldl max 0 + 1,
        (items.map Piece.room).foldl (· + ·) 0, items.all Piece.hollow⟩

/-- Alternative parts; a single part is not nested further. -/
def inChoice (branches : List Piece) : Piece :=
  match branches with
  | [] => nothing
  | [branch] => branch
  | branches =>
      ⟨.choice (branches.map Piece.pattern), (branches.map Piece.depth).foldl max 0 + 1,
        (branches.map Piece.room).foldl (· + ·) 0 + 32, branches.all Piece.hollow⟩

/-- A repeated part. -/
def repeated (greedy : Bool) (least : Nat) (most : Option Nat) (body : Piece) : Piece :=
  let cap (n : Nat) : Nat := if body.hollow then min n 1 else n
  let copies := match most with
    | some most => cap most
    | none => max (cap least) 1
  ⟨.rep greedy least most body.pattern, body.depth + 1, body.room * copies + 32,
    body.hollow || most == some 0⟩

end Piece

/-- Whether a character belongs to a word. -/
def Mode.isWord (mode : Mode) (c : Char) : Bool :=
  if mode.wide then isWordChar c else c.isAlphanum || c == '_'

/-- The part for a character that stands for itself. -/
def Mode.literal (mode : Mode) (c : Char) : Piece :=
  let exact : CharClass := (· == c)
  let cls := if !mode.ignoresCase then exact
    else if mode.wide then ignoreCase exact
    else ignoreAsciiCase exact
  .ofClass cls (32 * c.utf8Size)

/-- The part for the dot; without wide classes it could match half a character and is refused. -/
def Mode.dot (mode : Mode) : Except Fault Piece :=
  if !mode.wide then .error .malformed
  else
    .ok (.ofClass (fun c => mode.dotAll || (c != '\n' && !(mode.crlf && c == '\r'))) 500)

/-- The part for the start of the text or a line. -/
def Mode.startAnchor (mode : Mode) : Piece :=
  .ofLook fun before after =>
    match before with
    | none => true
    | some c =>
        mode.multiLine && (c == '\n' || (mode.crlf && c == '\r' && after != some '\n'))

/-- The part for the end of the text or a line. -/
def Mode.endAnchor (mode : Mode) : Piece :=
  .ofLook fun before after =>
    match after with
    | none => true
    | some c =>
        mode.multiLine &&
          (if mode.crlf then c == '\r' || (c == '\n' && before != some '\r') else c == '\n')

/-- The part for a condition on whether a word stands before and after a place. -/
def Mode.wordLook (mode : Mode) (condition : Bool → Bool → Bool) : Piece :=
  .ofLook fun before after => condition (before.any mode.isWord) (after.any mode.isWord)

/-- The classes that a letter behind a backslash names, and the room they take. -/
def Mode.letterClass? (mode : Mode) (letter : Char) : Option (CharClass × Nat) :=
  match letter with
  | 'd' => some (if mode.wide then (isDecimalDigit, 4500) else (Char.isDigit, 40))
  | 's' =>
      some (if mode.wide then (isBlank, 800)
        else (fun c => c == ' ' || ('\t' ≤ c && c ≤ '\r'), 48))
  | 'w' => some (mode.isWord, if mode.wide then 53000 else 64)
  | _ => none

/-- A class with the letters of both cases, if the mode asks for them, and then all characters but
its members, if it is negated. Without wide classes a negated class could match half a character
and is refused. -/
def Mode.finish (mode : Mode) (negated : Bool) (cls : CharClass) : Except Fault CharClass :=
  let cls := if !mode.ignoresCase then cls
    else if mode.wide then ignoreCase cls
    else ignoreAsciiCase cls
  if !negated then .ok cls
  else if mode.wide then .ok fun c => !cls c
  else .error .malformed

end Vetting.Pattern
