import Vetting.Pattern.Search

/-! Names in a listing of properties. The name of a property is a path of words joined by
underscores, and its last word is the name by which an artifact is expected to mention it. -/

namespace Vetting.PropertyListing

open Vetting.Text

/-- A named property; its last word is group 1. -/
def namePattern : Pattern :=
  .sequence [.word "Name:", .maybeGap, .oneOrMore (.one fun c => !isBlank c), .char '_',
    .group 1 .name]

/-- The last words of the properties that a listing names, in order. -/
def entities (listing : List Char) : List String :=
  (namePattern.all listing).map fun found => String.ofList (found.text 1)

/-- The names of a list, each at its first place only. -/
def distinct (names : List String) : List String :=
  (names.foldl (fun (kept : List String) name =>
    if kept.contains name then kept else name :: kept) []).reverse

/-- The names that an artifact is expected to mention: the given ones and those of a listing. There is
no expectation when there are none. -/
def expected? (given : List String) (listing : Option (List Char)) : Option (List String) :=
  let names := distinct (given ++ (listing.map entities).getD [])
  if names.isEmpty then none else some names

end Vetting.PropertyListing
