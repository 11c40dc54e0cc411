import Vetting.Files.Resolve
import Vetting.Json.Value
import Vetting.Promotion.RuleSet
import Vetting.Toml.Document

/-! The documents of rule sets. -/

namespace Vetting

namespace Severity

/-- The name of a severity in documents. -/
def tag : Severity → String
  | error => "error"
  | warning => "warning"

/-- The severity with a name. -/
def ofTag? : String → Option Severity
  | "error" => some error
  | "warning" => some warning
  | _ => none

/-- Reads a severity, which may also be the only key of a table and have an empty table as its
value. -/
def ofJson? : Json → Option Severity
  | .str name => ofTag? name
  | .obj [(name, .obj [])] => ofTag? name
  | _ => none

end Severity

namespace FileCheck

/-- The document of a check. -/
def toJson (check : FileCheck) : Json :=
  .obj [("path", .str check.path), ("rule", check.rule.toJson),
    ("severity", .str check.severity.tag), ("message", .str check.message)]

/-- Reads a check; the severity of one that has none is an error. -/
def ofJson? (doc : Json) : Option FileCheck := do
  let [path, rule, severity, message] ← Toml.record? ["path", "rule", "severity", "message"] doc
    | none
  let severity ← match severity with
    | none => some Severity.error
    | some name => Severity.ofJson? name
  return ⟨← (← path).str?, ← ContentRule.ofJson? (← rule), severity, ← (← message).str?⟩

end FileCheck

namespace RuleSet

/-- The document of a rule set. -/
def toJson (rules : RuleSet) : Json :=
  .obj [("allowlist_prefixes", .ofStrings rules.allowedStarts),
    ("required_files", .ofStrings rules.requiredFiles),
    ("forbidden_substrings", .ofStrings rules.forbidden),
    ("checks", .arr (rules.checks.map FileCheck.toJson))]

/-- Reads a rule set; one that has no checks may leave them out. -/
def ofJson? (doc : Json) : Option RuleSet := do
  let ([starts, files, forbidden], [checks]) ←
    doc.recordFrom? ["allowlist_prefixes", "required_files", "forbidden_substrings"] ["checks"]
    | none
  let checks ← match checks with
    | none => some []
    | some list => (← list.items?).mapM FileCheck.ofJson?
  return ⟨← starts.strings?, ← files.strings?, ← forbidden.strings?, checks⟩

/-- Why a rule set cannot be loaded. -/
inductive LoadFault where
  | unreadable (path : Path) (fault : FileFault)
  /-- The text is no document of a rule set. -/
  | malformed
  | invalid (fault : RuleFault)
  deriving DecidableEq, Repr

/-- The wording of a fault. -/
def LoadFault.message : LoadFault → String
  | unreadable path fault => "io error at " ++ path.text ++ ": " ++ fault.message
  | malformed => "rules parse error: TOML parse error"
  | invalid fault => fault.message

/-- The wording of a fault with its cause, where it has one. -/
def LoadFault.trace : LoadFault → String
  | unreadable path fault => (unreadable path fault).message ++ ": " ++ fault.message
  | fault => fault.message

/-- Reads the text of a rule set and checks it. -/
def ofText (text : List Char) : Except LoadFault RuleSet :=
  match (Toml.parse? text).bind ofJson? with
  | none => .error .malformed
  | some rules => (rules.validate.map fun _ => rules).mapError .invalid

/-- Reads the rule set in a file and checks it. -/
def load (tree : FileTree) (path : Path) : Except LoadFault RuleSet :=
  match tree.readText path with
  | .ok text => ofText text
  | .error fault => .error (.unreadable path fault)

end RuleSet

end Vetting
