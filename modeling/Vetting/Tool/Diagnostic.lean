import Vetting.Pattern.Search
import Vetting.Score.Scale
import Vetting.Text.Search
import Vetting.Tool.Prelude

/-! The error lines that a tool prints, and the credit that is left after them. Errors that come
from what the host lacks are excused. -/

namespace Vetting

open Vetting.Text

/-- The credit left after a number of errors. -/
def partialCredit {R : Type} [Scale R] (errors : Nat) : R :=
  Scale.round 3
    (Scale.larger (Scale.hundredths 85 - Scale.whole errors * Scale.hundredths 12)
      (Scale.hundredths 15))

/-- A number between colons; its digits are group 1. -/
def lineNumberPattern : Pattern :=
  .sequence [.char ':', .group 1 (.oneOrMore (.one isDecimalDigit)), .char ':']

/-- Reads digits of ASCII as a number of 64 bits. -/
def readWord? (digits : List Char) : Option Nat :=
  if digits.isEmpty || !digits.all Char.isDigit then none
  else
    let n := digits.foldl (fun n d => n * 10 + (d.toNat - '0'.toNat)) 0
    if n < UInt64.size then some n else none

/-- The first number between colons in a line. -/
def diagnosticLine? (line : List Char) : Option Nat :=
  (lineNumberPattern.first? line).bind fun found => readWord? (found.text 1)

/-- Whether a line has a word in it, in any letter case. -/
def hasAnyCase (line : List Char) (word : String) : Bool :=
  has (lower line) word

/-- The lines that report an error. -/
def errorLines (output : List Char) : List (List Char) :=
  (lines output).filter fun line => hasAnyCase line "error:"

/-- The mark of the stubs in a line. -/
def stubMark : String := "halgate: stub declarations"

/-- Whether an error lies in the stubs that stand before a C++ source. -/
def inStubs (line : List Char) : Bool :=
  (diagnosticLine? line).any (· ≤ Prelude.cppLineCount) || has line stubMark

/-- The errors that a C++ compiler reports on the source itself. -/
def cppErrors (stderr : List Char) : List String :=
  ((errorLines stderr).filter fun line => !inStubs line).map String.ofList

/-- The names of the platform, which do not resolve on a host without it. -/
def platformNames : List String :=
  ["CarPropertyManager", "Car", "Fragment", "Context", "Bundle", "View", "LayoutInflater",
    "ViewGroup", "CarPropertyEventCallback", "R", "ViewBinding", "ViewModel", "LiveData",
    "lifecycleScope"]

/-- A text in any letter case. -/
def anyCaseWord (text : String) : Pattern :=
  .sequence (text.toList.map fun c => .one fun d => foldCase d == foldCase c)

/-- The report of a name that does not resolve; the name is group 1. -/
def unresolvedPattern : Pattern :=
  .sequence [anyCaseWord "unresolved reference", .optional (.char ':'), .maybeGap,
    .optional (.char '\''), .group 1 .name]

/-- Whether an error is about a name of the platform. -/
def aboutPlatform (line : List Char) : Bool :=
  (unresolvedPattern.first? line).any fun found =>
    platformNames.contains (String.ofList (found.text 1))

/-- The errors that a Kotlin compiler reports on the source itself. -/
def kotlinErrors (stderr : List Char) : List String :=
  ((errorLines stderr).filter fun line => !aboutPlatform line).map String.ofList

end Vetting
