import Vetting.Artifact.Kind
import Vetting.Score.Scale
import Vetting.Text.Letters
import Vetting.Text.Search

/-! The structural score of an artifact: a checklist for its kind, each item with a weight in
hundredths. The score is the weight of the items that hold over the weight of all items, rounded to
four places; a blank artifact scores nothing. -/

namespace Vetting

/-- The earned weight over the whole weight, rounded to four places. -/
def weighted {R : Type} [Scale R] (checks : List (Bool × R)) : R :=
  let whole := Scale.total (checks.map Prod.snd)
  if Scale.isZero whole then Scale.whole 0
  else
    let earned := Scale.total ((checks.filter Prod.fst).map Prod.snd)
    Scale.round 4 (earned / whole)

/-- The number of places in a text where an element starts or ends. -/
structure TagCounts where
  opened : Nat
  closed : Nat

/-- Counts opening tags, and closing tags together with the ends of empty elements. -/
def TagCounts.ofText : List Char → TagCounts
  | [] => ⟨0, 0⟩
  | c :: rest =>
      let counts := ofText rest
      match c, rest with
      | '<', '/' :: name :: _ =>
          if name.isAlpha then { counts with closed := counts.closed + 1 } else counts
      | '<', name :: _ =>
          if name.isAlpha then { counts with opened := counts.opened + 1 } else counts
      | '/', '>' :: _ => { counts with closed := counts.closed + 1 }
      | _, _ => counts

/-- The keywords of the sections that a design document has. -/
def designSections : List String :=
  ["overview", "architecture", "propert", "security", "build", "data flow"]

/-- The sections that a document has, in the order of the list. -/
def sectionsPresent (doc : List Char) : List String :=
  let lowered := Text.lower doc
  designSections.filter (Text.has lowered)

/-- Something to look for in a text. -/
inductive Sign where
  /-- One of these occurs. -/
  | any (needles : List String)
  /-- This occurs in the text in lower case. -/
  | anyCase (needle : String)
  /-- The text has at least this many bytes. -/
  | bytes (atLeast : Nat)
  /-- The text has at least this many lines. -/
  | lines (atLeast : Nat)
  /-- All brackets are balanced. -/
  | balanced
  /-- About as many tags are closed as are opened. -/
  | tagsPaired

/-- Whether a text shows a sign. -/
def Sign.holds (text : List Char) : Sign → Bool
  | any needles => Text.containsAny text needles
  | anyCase needle => Text.has (Text.lower text) needle
  | bytes atLeast => atLeast ≤ Text.byteLength text
  | lines atLeast => atLeast ≤ (Text.lines text).length
  | balanced => Text.bracketsBalanced text
  | tagsPaired =>
      let counts := TagCounts.ofText text
      counts.opened ≤ counts.closed + 2 && counts.closed ≤ counts.opened + 2

/-- The checklist for a kind, with weights in hundredths. -/
def ArtifactKind.checklist : ArtifactKind → List (Sign × Nat)
  | aidl => [
      (.any ["package "], 20), (.any ["interface "], 20), (.balanced, 15),
      (.any ["boolean", "int", "float", "String", "byte[]"], 15),
      (.any ["void ", "oneway ", "ParcelableHolder"], 10),
      (.any ["@VintfStability", "@JavaDerive"], 5), (.bytes 151, 15)]
  | cpp => [
      (.any ["#include"], 15), (.any ["namespace"], 10), (.any ["class "], 15), (.balanced, 15),
      (.any ["getAllPropertyConfigs", "getValues", "setValues"], 25),
      (.any ["int32_t", "float", "bool", "VehiclePropValue"], 10), (.bytes 301, 10)]
  | selinux => [
      (.any ["type "], 20), (.any ["allow "], 25),
      (.any ["hal_vehicle", "vhal", "hal_attribute"], 20),
      (.any ["binder_call", "hwservice_use", "add_hwservice"], 20), (.lines 5, 15)]
  | build => [
      (.any ["aidl_interface", "cc_binary", "cc_library_shared", "cc_library"], 25),
      (.any ["name:"], 20), (.any ["srcs:"], 15), (.any ["vendor:"], 15), (.balanced, 15),
      (.bytes 81, 10)]
  | vintf => [
      (.any ["<hal"], 20), (.any ["<name>"], 15), (.any ["transport"], 15),
      (.any ["version"], 10), (.any ["service "], 15), (.any ["class hal", "user "], 10),
      (.bytes 101, 15)]
  | puml => [
      (.any ["@startuml"], 25), (.any ["@enduml"], 25), (.any ["->", "-->", "<--", "=>"], 20),
      (.any ["component", "package", "node", "rectangle", "class"], 15), (.lines 8, 15)]
  | androidApp => [
      (.any ["CarPropertyManager", "Car.createCar", "Car.CAR_"], 25), (.any ["Fragment"], 15),
      (.any ["onViewCreated", "onCreateView", "onResume"], 15),
      (.any ["CarPropertyEventCallback", "onChangeEvent", "registerCallback"], 15),
      (.any ["fun "], 10), (.balanced, 10), (.bytes 251, 10)]
  | androidLayout => [
      (.any ["LinearLayout", "ConstraintLayout", "RelativeLayout", "ScrollView"], 20),
      (.any ["android:id="], 20), (.any ["TextView", "Switch", "Button", "SeekBar", "CheckBox"], 20),
      (.tagsPaired, 20), (.bytes 151, 20)]
  | backend => [
      (.any ["FastAPI", "fastapi"], 20), (.any ["async def"], 15),
      (.any ["@app.get", "@app.post", "@app.put", "@router.get", "@router.post"], 20),
      (.any ["BaseModel", "pydantic"], 10), (.any ["/health", "/properties", "websocket"], 15),
      (.balanced, 10), (.bytes 251, 10)]
  | backendModel => [
      (.any ["BaseModel", "pydantic"], 25), (.any ["class "], 20),
      (.any ["bool", "float", "int", "str", "Optional"], 20), (.any ["Field(", ": "], 15),
      (.bytes 81, 20)]
  | simulator => [
      (.any ["class "], 20), (.any ["def "], 10), (.any ["async def", "asyncio", "await"], 20),
      (.any ["random", "randint", "uniform", "choice"], 20), (.any ["start", "stop", "run"], 15),
      (.bytes 151, 15)]
  | designDoc => [
      (.any ["## "], 20), (.anyCase "hal", 10), (.any ["|"], 15), (.lines 20, 20), (.bytes 500, 15)]

variable {R : Type} [Scale R]

/-- The score of a text on the checklist of a kind. -/
def checklistScore (kind : ArtifactKind) (text : List Char) : R :=
  weighted (kind.checklist.map fun item => (item.1.holds text, Scale.hundredths item.2))

/-- The structural score of a text as it stands; a design document is judged by its sections as
much as by its checklist. -/
def rawStructure (kind : ArtifactKind) (text : List Char) : R :=
  match kind with
  | .designDoc =>
      let found : R := Scale.whole (sectionsPresent text).length
      let sections := found / Scale.whole designSections.length
      Scale.round 4
        (Scale.hundredths 50 * checklistScore kind text + Scale.hundredths 50 * sections)
  | _ => checklistScore kind text

/-- The structural score of an artifact: that of its text without the blanks around it. -/
def structuralScore (kind : ArtifactKind) (text : List Char) : R :=
  let text := Text.trim text
  if text.isEmpty then Scale.whole 0 else rawStructure kind text

end Vetting
