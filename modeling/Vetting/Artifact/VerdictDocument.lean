import Vetting.Artifact.Verdict
import Vetting.Json.Value

/-! Verdicts as documents. A verdict without a summary has no field for it; a verdict that is read
keeps its score as it is written. -/

namespace Vetting.Verdict

/-- The document of a verdict. -/
def toJson (v : Verdict Float) : Json :=
  .obj ([("ok", .bool v.ok), ("score", .real v.score), ("errors", .ofStrings v.errors),
    ("tool", .str v.tool)] ++ (v.detail.map fun d => ("detail", Json.str d)).toList)

/-- Reads the document of a verdict. -/
def ofJson? (doc : Json) : Option (Verdict Float) :=
  match doc.recordFrom? ["ok", "score", "errors", "tool"] ["detail"] with
  | some ([ok, score, errors, tool], [detail]) => do
      return ⟨← ok.bool?, ← score.number?, ← errors.strings?, ← tool.str?,
        ← Json.optional? Json.str? detail⟩
  | _ => none

end Vetting.Verdict
