import Vetting.Files.Resolve
import Vetting.Promotion.Fault
import Vetting.Promotion.RuleSet
import Vetting.Text.Letters

/-! What the checks find in the required files of a draft. -/

namespace Vetting

/-- What checks find: errors, which stand against a promotion, and warnings. -/
structure Findings where
  errors : List String
  warnings : List String
  deriving DecidableEq, Repr

namespace Findings

/-- Nothing is found. -/
def none : Findings := ⟨[], []⟩

/-- An error is found. -/
def error (line : String) : Findings := ⟨[line], []⟩

/-- A warning is found. -/
def warning (line : String) : Findings := ⟨[], [line]⟩

/-- What is found by one check after another. -/
def concat (findings : List Findings) : Findings :=
  ⟨findings.flatMap Findings.errors, findings.flatMap Findings.warnings⟩

/-- Whether nothing stands against a promotion. -/
def passed (findings : Findings) : Bool :=
  findings.errors.isEmpty

end Findings

/-- The first of some texts that occurs in a content, in any letter case; the empty text never
does. -/
def firstForbidden (content : List Char) (forbidden : List String) : Option String :=
  let lowered := Text.lower content
  forbidden.find? fun text => !text.isEmpty && Text.contains lowered (Text.lower text.toList)

/-- What a check finds in a required file. -/
def FileCheck.findings (check : FileCheck) (path : String) (content : List Char) : Findings :=
  match check.rule.holds content with
  | .error fault =>
      .error (path ++ ": check '" ++ check.message ++ "' could not run: " ++ fault.message)
  | .ok true => .none
  | .ok false =>
      let line := path ++ ": " ++ check.message
      match check.severity with
      | .error => .error line
      | .warning => .warning line

namespace RuleSet

/-- What is found of forbidden texts in a required file. -/
def forbiddenFindings (rules : RuleSet) (path : String) (content : List Char) : Findings :=
  match firstForbidden content rules.forbidden with
  | some text => .error ("Forbidden content '" ++ text ++ "' found in " ++ path)
  | none => .none

/-- What is found in a required file: forbidden texts first, then the checks in their order. -/
def findingsIn (rules : RuleSet) (path : String) (content : List Char) : Findings :=
  .concat (rules.forbiddenFindings path content ::
    (rules.checksFor path).map fun check => check.findings path content)

/-- What is found in the required files of a draft; fails at the first that cannot be read. -/
def findings (rules : RuleSet) (tree : FileTree) (draft : Path) :
    Except PromotionFault Findings := do
  let found ← rules.requiredFiles.mapM fun path => do
    let file ← SafePath.resolve draft path
    let content ← (tree.readFile file).mapError (PromotionFault.files file)
    return rules.findingsIn path (Text.decodeLossy content)
  return .concat found

end RuleSet

end Vetting
