import Vetting.Text.Blank

/-! The kinds of generated artifact that can be vetted. Each has a tag of its own; a tag is read
with the blanks around it dropped, and nothing but a tag is read. -/

namespace Vetting

/-- A kind of generated artifact. -/
inductive ArtifactKind where
  /-- An interface definition in AIDL. -/
  | aidl
  /-- The native service, in C++. -/
  | cpp
  /-- A type-enforcement policy for SELinux. -/
  | selinux
  /-- A build description for Soong. -/
  | build
  /-- A VINTF manifest with its init script. -/
  | vintf
  /-- A PlantUML diagram. -/
  | puml
  /-- A Kotlin fragment of the app. -/
  | androidApp
  /-- A layout of the app. -/
  | androidLayout
  /-- A server with a REST interface, in Python. -/
  | backend
  /-- The data models of the server. -/
  | backendModel
  /-- A simulator of properties, in Python. -/
  | simulator
  /-- A design document in Markdown. -/
  | designDoc
  deriving DecidableEq, Repr, Inhabited

namespace ArtifactKind

/-- All kinds, in the order in which they are listed. -/
def all : List ArtifactKind :=
  [aidl, cpp, selinux, build, vintf, puml, androidApp, androidLayout, backend, backendModel,
    simulator, designDoc]

/-- The tag of a kind. -/
def tag : ArtifactKind → String
  | aidl => "aidl"
  | cpp => "cpp"
  | selinux => "selinux"
  | build => "build"
  | vintf => "vintf"
  | puml => "puml"
  | androidApp => "android_app"
  | androidLayout => "android_layout"
  | backend => "backend"
  | backendModel => "backend_model"
  | simulator => "simulator"
  | designDoc => "design_doc"

/-- The kinds that are Python scripts. -/
def isScript : ArtifactKind → Bool
  | backend | backendModel | simulator => true
  | _ => false

/-- The place of a kind in the list. -/
def index (kind : ArtifactKind) : Nat :=
  all.idxOf kind

/-- The kind with exactly this tag. -/
def ofTag? (tag : String) : Option ArtifactKind :=
  all.find? fun kind => kind.tag == tag

/-- Reads a tag between blanks. -/
def parse? (text : String) : Option ArtifactKind :=
  ofTag? (Text.trimString text)

/-- The refusal of a text that is no tag. -/
def unknownMessage (given : String) : String :=
  "unknown artifact type '" ++ given ++ "' (valid types: " ++ ", ".intercalate (all.map tag) ++ ")"

theorem mem_all (kind : ArtifactKind) : kind ∈ all := by
  cases kind <;> decide

theorem ofTag?_tag (kind : ArtifactKind) : ofTag? kind.tag = some kind := by
  cases kind <;> rfl

end ArtifactKind

end Vetting
