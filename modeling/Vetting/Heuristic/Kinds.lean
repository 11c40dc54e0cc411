import Vetting.Heuristic.Aidl
import Vetting.Heuristic.AndroidLayout
import Vetting.Heuristic.Keywords
import Vetting.Heuristic.Markdown
import Vetting.Heuristic.Python
import Vetting.Heuristic.Soong
import Vetting.Heuristic.Vintf

/-! The heuristic for each kind of artifact. -/

namespace Vetting.ArtifactKind

/-- Assesses a text as an artifact of a kind. -/
def assess (kind : ArtifactKind) (content : List Char) : Assessment :=
  match kind with
  | aidl => Aidl.assess content
  | cpp => assessCpp content
  | selinux => assessSelinux content
  | build => Soong.assess content
  | vintf => Vintf.assess content
  | puml => assessDiagram content
  | androidApp => assessKotlin content
  | androidLayout => AndroidLayout.assess content
  | backend | backendModel | simulator => Script.assess kind content
  | designDoc => assessDocument content

/-- The label of the heuristic for a kind. -/
def heuristicLabel : ArtifactKind → String
  | aidl => "aidl-grammar-parser"
  | cpp => "cpp-keyword-fallback"
  | selinux => "selinux-keyword-fallback"
  | build => "blueprint-structure-parser"
  | vintf => "xml-parser+vintf-rules"
  | puml => "puml-marker-fallback"
  | androidApp => "kotlin-keyword-fallback"
  | androidLayout => "xml-parser+layout-rules"
  | backend => Script.toolLabel backend
  | backendModel => Script.toolLabel backendModel
  | simulator => Script.toolLabel simulator
  | designDoc => "markdown-structure"

variable {R : Type} [Scale R]

/-- The verdict of the heuristic for a kind. -/
def heuristic (kind : ArtifactKind) (acceptAt : R) (content : List Char) : Verdict R :=
  (kind.assess content).verdict kind.standard kind.heuristicLabel acceptAt

/-- The verdict on a text as a script, whatever its kind. -/
def scriptVerdict (kind : ArtifactKind) (acceptAt : R) (content : List Char) : Verdict R :=
  (Script.assess kind content).verdict ⟨true, false⟩ (Script.toolLabel kind) acceptAt

/-- Whether artifacts of a kind are looked at before anything runs. -/
def hasPrecheck (kind : ArtifactKind) : Bool :=
  kind == puml

/-- The verdict that is given before anything runs: a diagram without its markers is rejected. -/
def precheck? (kind : ArtifactKind) (content : List Char) : Option (Verdict R) :=
  match kind with
  | puml =>
      (missingMarker? content).map fun missing =>
        Verdict.reject (Scale.hundredths missing.1) [missing.2] puml.heuristicLabel
  | _ => none

end Vetting.ArtifactKind
