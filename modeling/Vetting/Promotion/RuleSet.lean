import Vetting.Promotion.ContentRule
import Vetting.Promotion.SafePath

/-! Rule sets for the promotion of drafts: where the files of a draft may lie, which files it must
have, and what holds of their contents. -/

namespace Vetting

/-- Whether a failed check stands against a promotion. -/
inductive Severity where
  | error
  | warning
  deriving DecidableEq, Repr

/-- A rule on required files, with what is said when it does not hold. -/
structure FileCheck where
  /-- A required file, or a star for every one of them. -/
  path : String
  rule : ContentRule
  severity : Severity
  message : String
  deriving DecidableEq, Repr

namespace FileCheck

/-- The path that stands for every required file. -/
def everyFile : String := "*"

/-- Whether a check is about a required file. -/
def appliesTo (check : FileCheck) (path : String) : Bool :=
  check.path == everyFile || check.path == path

end FileCheck

/-- A rule set. -/
structure RuleSet where
  /-- How the paths of all files of a draft start. -/
  allowedStarts : List String
  /-- The files that a draft must have; these are promoted. -/
  requiredFiles : List String
  /-- What no required file may contain. -/
  forbidden : List String
  checks : List FileCheck
  deriving DecidableEq, Repr

/-- What is wrong with a rule set. -/
inductive RuleFault where
  | noAllowedStarts
  | noRequiredFiles
  | unsafePath (path : UnsafePath)
  | notNormal (path normal : String)
  | notAllowed (path : String)
  | listedTwice (path : String)
  | unknownTarget (message path : String)
  | badPattern (pattern : String) (fault : Pattern.Fault)
  deriving DecidableEq, Repr

/-- The wording of a fault. -/
def RuleFault.message : RuleFault → String
  | noAllowedStarts => "invalid rule set: allowlist_prefixes is empty"
  | noRequiredFiles => "invalid rule set: required_files is empty"
  | unsafePath path => path.message
  | notNormal path normal =>
      "invalid rule set: required file '" ++ path ++ "' is not in normal form ('" ++ normal ++ "')"
  | notAllowed path =>
      "invalid rule set: required file '" ++ path ++ "' is outside every allowlisted prefix"
  | listedTwice path => "invalid rule set: required file '" ++ path ++ "' listed twice"
  | unknownTarget message path =>
      "invalid rule set: check '" ++ message ++ "' targets '" ++ path ++
        "', which is not a required file"
  | badPattern pattern fault =>
      "invalid rule set: bad pattern '" ++ pattern ++ "': " ++ fault.message

namespace RuleSet

/-- Whether a path of a draft starts as one of its files may. -/
def allows (rules : RuleSet) (path : String) : Bool :=
  rules.allowedStarts.any fun start => Text.startsWith path.toList start

/-- The checks on a required file, in their order. -/
def checksFor (rules : RuleSet) (path : String) : List FileCheck :=
  rules.checks.filter fun check => check.appliesTo path

/-- Checks that a path is safe. -/
def checkSafe (path : String) : Except RuleFault String :=
  (SafePath.normalize path).mapError .unsafePath

/-- Checks the required files, given those before them. -/
def checkFiles (rules : RuleSet) : List String → List String → Except RuleFault Unit
  | _, [] => .ok ()
  | seen, path :: rest => do
      let normal ← checkSafe path
      if normal ≠ path then throw (.notNormal path normal)
      if !rules.allows path then throw (.notAllowed path)
      if seen.contains path then throw (.listedTwice path)
      checkFiles rules (path :: seen) rest

/-- Checks that a check is about required files and has a pattern that can be used. -/
def checkCheck (rules : RuleSet) (check : FileCheck) : Except RuleFault Unit := do
  if check.path ≠ FileCheck.everyFile ∧ ¬ rules.requiredFiles.contains check.path then
    throw (.unknownTarget check.message check.path)
  match check.rule.pattern? with
  | none => return ()
  | some pattern =>
      match Pattern.parse pattern with
      | .ok _ => return ()
      | .error fault => throw (.badPattern pattern fault)

/-- Checks a rule set: its paths are safe, the required files are in normal form, allowed and
listed once, and every check can be used. -/
def validate (rules : RuleSet) : Except RuleFault Unit := do
  if rules.allowedStarts.isEmpty then throw .noAllowedStarts
  if rules.requiredFiles.isEmpty then throw .noRequiredFiles
  rules.allowedStarts.forM fun start => do
    let _ ← checkSafe start
  rules.checkFiles [] rules.requiredFiles
  rules.checks.forM rules.checkCheck

end RuleSet

end Vetting
