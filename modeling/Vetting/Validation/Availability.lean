import Vetting.Validation.Validator

/-! What checks artifacts of each kind on a host. -/

namespace Vetting

/-- The version of the program. -/
def programVersion : String := "0.3.1"

/-- A remark on how a kind is checked. -/
def ArtifactKind.note : ArtifactKind → String
  | aidl => "host-native grammar check; the platform aidl compiler needs a full tree"
  | cpp => "syntax only, VHAL headers stubbed in"
  | selinux => "full policy compile, class/common prelude injected"
  | build => "structural parser; Soong is not available on a bare host"
  | vintf => "XML well-formedness plus VINTF and init.rc rules"
  | puml => "needs both java and plantuml.jar"
  | androidApp => "syntax only, platform SDK references filtered"
  | androidLayout => "XML well-formedness plus layout rules"
  | backend => "full syntax tree plus route and async checks"
  | backendModel => "full syntax tree plus model and annotation checks"
  | simulator => "full syntax tree plus async and lifecycle checks"
  | designDoc => "heading, section and length heuristics"

/-- What checks artifacts of a kind. -/
structure Availability where
  kind : ArtifactKind
  tool : String
  available : Bool
  /-- What checks them when the tool is missing. -/
  fallback : Option String
  note : String
  deriving DecidableEq, Repr

/-- What checks artifacts of a kind on a host with the given tools. -/
def availability (tools : Toolbox) (kind : ArtifactKind) : Availability :=
  match kind.checker? with
  | some checker =>
      ⟨kind, checker.label, (checker.locate tools).isSome, some kind.heuristicLabel, kind.note⟩
  | none => ⟨kind, kind.heuristicLabel, true, none, kind.note⟩

/-- What checks artifacts of every kind. -/
def availabilityReport (tools : Toolbox) : List Availability :=
  ArtifactKind.all.map (availability tools)

end Vetting
