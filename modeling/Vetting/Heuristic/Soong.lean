import Vetting.Heuristic.Assessment
import Vetting.Pattern.Search

/-! Build descriptions for Soong: balanced delimiters, a known module block, the fields that every
module has, and no string that is left open at the end of a line. -/

namespace Vetting.Soong

open Vetting.Text
open Vetting.Pattern (maybeGap name)

/-- The module types of which one is expected. -/
def moduleTypes : List String :=
  ["aidl_interface", "cc_binary", "cc_library", "cc_library_shared"]

/-- A block at the start of a line; its name is group 1. -/
def blockPattern : Pattern :=
  .sequence [.lineStart, maybeGap, .group 1 name, maybeGap, .char '\x7b']

/-- The mark of a vendor module. -/
def vendorPattern : Pattern :=
  .sequence [.word "vendor:", maybeGap, .word "true"]

/-- Inserts a name into a sorted list of different names. -/
def insertSorted (name : String) : List String → List String
  | [] => [name]
  | other :: rest =>
      if name < other then name :: other :: rest
      else if name = other then other :: rest
      else other :: insertSorted name rest

/-- The names of the blocks of a text, sorted, each once. -/
def blocks (text : List Char) : List String :=
  ((blockPattern.all text).map fun found => String.ofList (found.text 1)).foldl
    (fun names name => insertSorted name names) []

/-- Whether a line ends inside a string, given whether it starts inside one. Two slashes outside a
string start a comment; inside a string a backslash takes the next character with it. -/
def endsOpen : Bool → List Char → Bool
  | inside, [] => inside
  | true, '\\' :: _ :: rest => endsOpen true rest
  | true, ['\\'] => true
  | inside, '"' :: rest => endsOpen (!inside) rest
  | false, '/' :: '/' :: _ => false
  | inside, _ :: rest => endsOpen inside rest

/-- The number of the first line that leaves a string open, counting from one. -/
def unclosedLine? (text : List Char) : Option Nat :=
  ((lines text).findIdx? (endsOpen false)).map (· + 1)

/-- What is found about the strings of a text. -/
def stringFindings (text : List Char) : List Finding :=
  match unclosedLine? text with
  | some line => [.fault ("Unclosed string literal detected (line " ++ toString line ++ ")")]
  | none => [.credit 10 1]

/-- Assesses a build description. -/
def assess (text : List Char) : Assessment :=
  let found := (blocks text).filter moduleTypes.contains
  .graded
    (Finding.braces text 20
      ++ Finding.check (countChar text '[' == countChar text ']') 5
        "Unbalanced square brackets in lists"
      ++ Finding.check (!found.isEmpty) 25
        ("No required block type found. Expected one of: " ++ ", ".intercalate moduleTypes)
      ++ Finding.check (has text "name:") 15 "Missing 'name:' field"
      ++ Finding.check (has text "srcs:") 10 "Missing 'srcs:' field"
      ++ Finding.check (vendorPattern.found text) 15
        "Missing 'vendor: true'; HAL modules must be on the vendor partition"
      ++ stringFindings text)
    ("blocks=" ++ if found.isEmpty then "none" else ", ".intercalate found)

end Vetting.Soong
