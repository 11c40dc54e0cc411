import Vetting.Pattern.Basic

/-! Whether a pattern occurs in a text, decided without trying one match after another: a set of
places holds the bit of each of its members, and a pattern turns the set of places where it may
start into the set of places where it may end. A repetition adds places until nothing is new, so
the work is bounded by the size of the pattern and the square of the length of the text. -/

namespace Vetting.Pattern

/-- A pattern for one text: each class is the set of places whose character belongs to it, and each
condition the set of places that satisfy it. -/
inductive Trace where
  | empty
  | one (places : Nat)
  | look (places : Nat)
  | seq (first second : Trace)
  | alt (first second : Trace)
  | rep (least : Nat) (most : Option Nat) (body : Trace)

/-- The set of the places of a list that satisfy a test. -/
def placesWhere {α : Type} (test : α → Bool) (items : List α) : Nat :=
  (items.foldl (fun (set, bit) item => (if test item then set ||| bit else set, bit <<< 1))
    (0, 1)).1

/-- The characters before and after each place of a text. -/
def neighbours (before : Option Char) : List Char → List (Option Char × Option Char)
  | [] => [(before, none)]
  | c :: rest => (before, some c) :: neighbours (some c) rest

/-- A pattern for one text. -/
def trace (text : List Char) (gaps : List (Option Char × Option Char)) : Pattern → Trace
  | .empty => .empty
  | .one member => .one (placesWhere member text)
  | .look condition => .look (placesWhere (fun gap => condition gap.1 gap.2) gaps)
  | .seq first second => .seq (trace text gaps first) (trace text gaps second)
  | .alt first second => .alt (trace text gaps first) (trace text gaps second)
  | .rep _ least most body => .rep least most (trace text gaps body)
  | .group _ body => trace text gaps body

/-- Applies a step a number of times, or until it changes nothing. -/
def exactly (step : Nat → Nat) : Nat → Nat → Nat
  | 0, places => places
  | n + 1, places =>
      let next := step places
      if next == places then places else exactly step n next

/-- Adds the places that a step leads to, a number of times or until nothing is new. -/
def upTo (step : Nat → Nat) : Nat → Nat → Nat
  | 0, places => places
  | n + 1, places =>
      let more := places ||| step places
      if more == places then places else upTo step n more

/-- The places where a match may end that starts at one of the given places, in a text with
`size` places. -/
def Trace.ends (size : Nat) : Trace → Nat → Nat
  | .empty, places => places
  | .one members, places => (places &&& members) <<< 1
  | .look members, places => places &&& members
  | .seq first second, places => second.ends size (first.ends size places)
  | .alt first second, places => first.ends size places ||| second.ends size places
  | .rep least most body, places =>
      upTo (body.ends size) ((most.map (· - least)).getD size)
        (exactly (body.ends size) least places)

/-- Whether a pattern matches somewhere in a text. -/
def occursIn (pattern : Pattern) (text : List Char) : Bool :=
  let size := text.length + 1
  (trace text (neighbours none text) pattern).ends size ((1 <<< size) - 1) != 0

end Vetting.Pattern
