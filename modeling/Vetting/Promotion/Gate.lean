import Vetting.Promotion.Commit
import Vetting.Promotion.Findings
import Vetting.Promotion.Listing
import Vetting.Promotion.Report
import Vetting.Promotion.VehicleHal
import Vetting.Text.Quoted
import Vetting.Validation.Course

/-! The gate through which a draft is promoted. The stages are passed in their order, and the first
that rejects the draft ends the promotion; only when all have been passed are files put into place.
Every promotion leaves a report. -/

namespace Vetting

/-- A gate. -/
structure PromotionGate where
  outputRoot : Path
  draftRoot : Path
  rules : RuleSet
  deriving DecidableEq, Repr

/-- What the stages that only read find, and the one that rejects the draft. -/
structure Inspection where
  rejected : List String
  errors : List String
  warnings : List String
  failedStage : Option GateStage
  deriving DecidableEq, Repr

namespace Inspection

/-- The draft is rejected with one error. -/
def reject (stage : GateStage) (error : String) : Inspection :=
  ⟨[], [error], [], some stage⟩

end Inspection

namespace PromotionGate

/-- The number of paths that are quoted where a draft holds what is not allowed. -/
def quotedPaths : Nat := 5

/-- Where a draft lies when nothing else is said. -/
def defaultDraftRoot (outputRoot : Path) : Path :=
  (outputRoot.join (Path.bytesOf ".llm_draft")).join (Path.bytesOf "latest")

/-- The gate for the draft of a vehicle service. -/
def ofOutputRoot (outputRoot : Path) : PromotionGate where
  outputRoot := outputRoot
  draftRoot := defaultDraftRoot outputRoot
  rules := VehicleHal.ruleSet

/-- A gate whose draft lies where a setting says, unless that is empty. -/
def withSetting (gate : PromotionGate) (draftRoot : Option Path) : PromotionGate :=
  match draftRoot with
  | none => gate
  | some root => if root.isEmpty then gate else { gate with draftRoot := root }

/-- The paths of a draft that are not allowed, sorted. -/
def disallowed (gate : PromotionGate) (listing : DraftListing) : List String :=
  (listing.refused.map Prod.fst ++ listing.files.filter fun path => !gate.rules.allows path).mergeSort
    fun a b => a ≤ b

/-- The required files that a draft does not have. -/
def missing (gate : PromotionGate) (listing : DraftListing) : List String :=
  gate.rules.requiredFiles.filter fun path => !listing.files.contains path

/-- The rejection of a draft that holds what is not allowed. -/
def rejectDisallowed (listing : DraftListing) (paths : List String) : Inspection where
  rejected := paths
  errors :=
    ("Draft contains files outside allowlisted prefixes; refusing promotion. Examples: " ++
      Text.quoteList (paths.take quotedPaths)) ::
    listing.refused.map fun (path, refusal) =>
      "Refused draft entry '" ++ path ++ "': " ++ refusal.reason
  warnings := []
  failedStage := some .allowlist

/-- What the checks say of a draft that has the required files. -/
def inspectContents (gate : PromotionGate) (tree : FileTree) : Inspection :=
  match gate.rules.findings tree gate.draftRoot with
  | .error fault => .reject .invariants ("Invariant check failed: " ++ fault.message)
  | .ok findings =>
      ⟨[], findings.errors, findings.warnings, if findings.passed then none else some .invariants⟩

/-- What is said of a draft that has been listed. -/
def inspectListing (gate : PromotionGate) (tree : FileTree) (listing : DraftListing) :
    Inspection :=
  if listing.isEmpty then
    .reject .discovery ("No files found under draft root: " ++ gate.draftRoot.text)
  else
    match gate.disallowed listing with
    | path :: paths => rejectDisallowed listing (path :: paths)
    | [] =>
        match gate.missing listing with
        | path :: paths =>
            .reject .requiredFiles
              ("Missing required draft files: " ++ Text.joinWith ", " (path :: paths))
        | [] => gate.inspectContents tree

/-- The stages that only read. -/
def inspect (gate : PromotionGate) (tree : FileTree) : Inspection :=
  if !tree.isDirectory gate.draftRoot then
    .reject .discovery ("Draft root not found: " ++ gate.draftRoot.text)
  else
    match DraftListing.collect tree gate.draftRoot with
    | .error fault => .reject .discovery ("Could not list draft root: " ++ fault.message)
    | .ok listing => gate.inspectListing tree listing

/-- Where the files of a gate come from and go to. -/
def route (gate : PromotionGate) : PromotionRoute :=
  ⟨gate.draftRoot, gate.outputRoot⟩

/-- The report on a draft, with what its inspection has found. -/
def reportOf (gate : PromotionGate) (now : Timestamp) (found : Inspection) : PromotionReport :=
  { PromotionReport.undecided gate.draftRoot gate.outputRoot now with
    rejected := found.rejected
    errors := found.errors
    warnings := found.warnings }

/-- The report on a draft whose files have been put into place. -/
def accepted (report : PromotionReport) (files : List StagedFile) : PromotionReport :=
  { report with
    ok := true
    promoted := files.map StagedFile.path
    digests := PromotionReport.sortedEntries (files.map fun file => (file.path, file.digest)) }

/-- What is done after an inspection: files are put into place unless the draft is rejected. -/
def decide (gate : PromotionGate) (now : Timestamp) (found : Inspection) :
    FileProgram PromotionReport := do
  let report := gate.reportOf now found
  match found.failedStage with
  | some stage => return report.reject stage
  | none =>
      match ← (gate.route.commit gate.rules.requiredFiles).run with
      | .ok files => return accepted report files
      | .error fault =>
          return { report with errors := report.errors ++ [fault.message] }.reject .commit

/-- What becomes of a promotion. -/
structure Outcome where
  /-- The report, or why it could not be written. -/
  report : Except PromotionFault PromotionReport
  /-- What the promotion counts for. -/
  counters : Counters

/-- All that is done after an inspection. -/
def program (gate : PromotionGate) (now : Timestamp) (found : Inspection) : FileProgram Outcome := do
  let report ← gate.decide now found
  let counters := Counters.promotion report.ok
  match ← report.write gate.outputRoot with
  | .ok path => return ⟨.ok { report with reportPath := path.text }, counters⟩
  | .error fault => return ⟨.error fault, counters⟩

/-- Promotes a draft. -/
def run (gate : PromotionGate) (now : Timestamp) (tree : FileTree) : Outcome × FileTree :=
  (gate.program now (gate.inspect tree)).run tree

end PromotionGate

end Vetting
