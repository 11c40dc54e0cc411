import Vetting.Json.Value
import Vetting.Pattern.Occurrence
import Vetting.Pattern.Reader
import Vetting.Text.Search

/-! Rules on the content of a file, and their documents. -/

namespace Vetting

/-- A rule on the content of a file. -/
inductive ContentRule where
  /-- A token occurs. -/
  | contains (token : String)
  /-- One of several tokens occurs. -/
  | containsAny (tokens : List String)
  /-- A pattern matches somewhere. -/
  | matching (pattern : String)
  /-- A pattern matches nowhere. -/
  | absent (pattern : String)
  /-- Where one token occurs, another one does too. -/
  | requires (token companion : String)
  deriving DecidableEq, Repr

namespace ContentRule

/-- The pattern of a rule that has one. -/
def pattern? : ContentRule → Option String
  | matching pattern => some pattern
  | absent pattern => some pattern
  | _ => none

/-- Whether a content satisfies a rule; fails when the pattern of the rule is none. -/
def holds (content : List Char) : ContentRule → Except Pattern.Fault Bool
  | contains token => .ok (Text.has content token)
  | containsAny tokens => .ok (Text.containsAny content tokens)
  | matching pattern => (Pattern.parse pattern).map fun p => p.occursIn content
  | absent pattern => (Pattern.parse pattern).map fun p => !p.occursIn content
  | requires token companion => .ok (!Text.has content token || Text.has content companion)

/-- The document of a rule. -/
def toJson : ContentRule → Json
  | contains token => .obj [("kind", .str "contains"), ("token", .str token)]
  | containsAny tokens => .obj [("kind", .str "contains_any"), ("tokens", .ofStrings tokens)]
  | matching pattern => .obj [("kind", .str "matches"), ("pattern", .str pattern)]
  | absent pattern => .obj [("kind", .str "absent"), ("pattern", .str pattern)]
  | requires token companion =>
      .obj [("kind", .str "requires"), ("token", .str token), ("companion", .str companion)]

/-- Reads the fields of a rule of a kind. -/
def ofFields? (kind : String) (fields : Json) : Option ContentRule :=
  match kind with
  | "contains" => do
      let ([token], _) ← fields.recordFrom? ["token"] [] | none
      return contains (← token.str?)
  | "contains_any" => do
      let ([tokens], _) ← fields.recordFrom? ["tokens"] [] | none
      return containsAny (← tokens.strings?)
  | "matches" => do
      let ([pattern], _) ← fields.recordFrom? ["pattern"] [] | none
      return matching (← pattern.str?)
  | "absent" => do
      let ([pattern], _) ← fields.recordFrom? ["pattern"] [] | none
      return absent (← pattern.str?)
  | "requires" => do
      let ([token, companion], _) ← fields.recordFrom? ["token", "companion"] [] | none
      return requires (← token.str?) (← companion.str?)
  | _ => none

/-- Reads the document of a rule: an object whose field `kind` tells the kind, or an array that
starts with it. -/
def ofJson? : Json → Option ContentRule
  | .obj fields => do
      let kind ← ← Json.fieldOnce? fields "kind"
      ofFields? (← kind.str?) (.obj fields)
  | .arr (kind :: rest) => do ofFields? (← kind.str?) (.arr rest)
  | _ => none

end ContentRule

end Vetting
