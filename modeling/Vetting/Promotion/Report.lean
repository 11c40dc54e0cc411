import Vetting.Files.Program
import Vetting.Json.Parser
import Vetting.Json.Printer
import Vetting.Json.Value
import Vetting.Promotion.Fault
import Vetting.Time.Timestamp

/-! The report that every promotion leaves behind. -/

namespace Vetting

/-- A stage of a promotion, at which it may be rejected. -/
inductive GateStage where
  /-- The draft is looked for and listed. -/
  | discovery
  | allowlist
  | requiredFiles
  | invariants
  /-- The files are put into place. -/
  | commit
  deriving DecidableEq, Repr

namespace GateStage

/-- The stages, in their order. -/
def all : List GateStage := [discovery, allowlist, requiredFiles, invariants, commit]

/-- The name of a stage. -/
def tag : GateStage → String
  | discovery => "discovery"
  | allowlist => "allowlist"
  | requiredFiles => "required_files"
  | invariants => "invariants"
  | commit => "commit"

/-- The stage that has a name. -/
def ofTag? (tag : String) : Option GateStage :=
  all.find? fun stage => stage.tag == tag

end GateStage

/-- What became of a promotion. -/
structure PromotionReport where
  ok : Bool
  draftRoot : String
  /-- The paths of the promoted files. -/
  promoted : List String
  /-- The paths that were not allowed. -/
  rejected : List String
  errors : List String
  warnings : List String
  reportPath : String
  failedStage : Option GateStage
  /-- The digests of the promoted files, sorted by their paths. -/
  digests : List (String × String)
  generatedAt : Timestamp
  deriving DecidableEq, Repr

namespace PromotionReport

/-- The name of the file of a report. -/
def fileName : String := "PROMOTION_REPORT.json"

/-- The path of a report below the directory to which files are promoted. -/
def pathIn (outputRoot : Path) : Path :=
  outputRoot.join (Path.bytesOf fileName)

/-- A report on a promotion that has not been decided. -/
def undecided (draftRoot outputRoot : Path) (now : Timestamp) : PromotionReport where
  ok := false
  draftRoot := draftRoot.text
  promoted := []
  rejected := []
  errors := []
  warnings := []
  reportPath := (pathIn outputRoot).text
  failedStage := none
  digests := []
  generatedAt := now

/-- The report on a promotion that is rejected at a stage: nothing is promoted. -/
def reject (report : PromotionReport) (stage : GateStage) : PromotionReport :=
  { report with ok := false, failedStage := some stage, promoted := [], digests := [] }

/-- Adds an entry to entries that are sorted by their keys, instead of one with the same key. -/
def insertSorted (key value : String) : List (String × String) → List (String × String)
  | [] => [(key, value)]
  | entry :: rest =>
      if key == entry.1 then (key, value) :: rest
      else if key < entry.1 then (key, value) :: entry :: rest
      else entry :: insertSorted key value rest

/-- Sorts entries by their keys; of those with the same key, the last one counts. -/
def sortedEntries (entries : List (String × String)) : List (String × String) :=
  entries.foldl (fun sorted entry => insertSorted entry.1 entry.2 sorted) []

/-- The document of a report. -/
def toJson (report : PromotionReport) : Json :=
  .obj ([("ok", .bool report.ok), ("draft_root", .str report.draftRoot),
      ("promoted", .ofStrings report.promoted), ("rejected", .ofStrings report.rejected),
      ("errors", .ofStrings report.errors), ("warnings", .ofStrings report.warnings),
      ("report_path", .str report.reportPath)] ++
    (report.failedStage.map fun stage => ("failed_stage", Json.str stage.tag)).toList ++
    [("digests", .obj (report.digests.map fun entry => (entry.1, .str entry.2))),
      ("generated_at", .str report.generatedAt.text)])

/-- Reads digests. -/
def digestsOf? (doc : Json) : Option (List (String × String)) := do
  let entries ← (← doc.fields?).mapM fun (path, digest) => do return (path, ← digest.str?)
  return sortedEntries entries

/-- Reads the document of a report; the stage and the digests may be missing. -/
def ofJson? (doc : Json) : Option PromotionReport := do
  let [ok, draftRoot, promoted, rejected, errors, warnings, reportPath, stage, digests, time] ←
    doc.record? ["ok", "draft_root", "promoted", "rejected", "errors", "warnings", "report_path",
      "failed_stage", "digests", "generated_at"] | none
  let stage ← Json.optional? (fun name => name.unitName?.bind GateStage.ofTag?) stage
  let digests ← match digests with
    | none => some []
    | some entries => digestsOf? entries
  return ⟨← (← ok).bool?, ← (← draftRoot).str?, ← (← promoted).strings?, ← (← rejected).strings?,
    ← (← errors).strings?, ← (← warnings).strings?, ← (← reportPath).str?, stage, digests,
    ← ((← time).str?).bind Timestamp.parse?⟩

/-- The text of a report. -/
def text (report : PromotionReport) : String :=
  report.toJson.pretty ++ "\n"

/-- Reads the report in a file; there is none when the text of the file is no report. -/
def read (tree : FileTree) (path : Path) : Except PromotionFault (Option PromotionReport) :=
  match tree.readText path with
  | .ok content => .ok ((Json.parse? (String.ofList content)).bind ofJson?)
  | .error fault => .error (.files path fault)

/-- Writes a report below a directory, which is made when it is missing. The report is written to a
new file first, which then takes the place of an earlier report. -/
def write (report : PromotionReport) (outputRoot : Path) :
    FileProgram (Except PromotionFault Path) := do
  match ← FileProgram.request (.createDirectories outputRoot) with
  | .error fault => return .error (.files outputRoot fault)
  | .ok () =>
      let path := pathIn outputRoot
      let content := Path.bytesOf report.text
      match ← FileProgram.request (.writeScratch outputRoot (Path.bytesOf ".tmp") content) with
      | .error fault => return .error (.files outputRoot fault)
      | .ok written =>
          match ← FileProgram.request (.rename written path) with
          | .ok () => return .ok path
          | .error fault =>
              let _ ← FileProgram.request (.removeFile written)
              return .error (.files path fault)

end PromotionReport

end Vetting
