import Vetting.Heuristic.Assessment
import Vetting.Markup.Element

/-! VINTF manifests. An artifact holds the manifest and, behind a marker, the init script of the
service. What is missing costs credit but does not veto. -/

namespace Vetting.Vintf

open Vetting.Text Vetting.Markup

/-- The marker between the manifest and the init script. -/
def initMarker : String := "# --- init.rc ---"

/-- The two parts of an artifact, without the blanks around them. -/
structure Sections where
  manifest : List Char
  initScript : List Char
  deriving DecidableEq, Repr

/-- Splits an artifact at the first marker; without one there is no init script. -/
def Sections.ofText (content : List Char) : Sections :=
  match splitOnce? initMarker.toList content with
  | some (manifest, script) => ⟨trim manifest, trim script⟩
  | none => ⟨trim content, []⟩

/-- The transports that a service may have. -/
def transports : List String := ["hwbinder", "passthrough", "binder"]

/-- Whether an init script starts the service as it should. -/
def scriptComplete (script : List Char) : Bool :=
  has script "service " && containsAny script ["class hal", "user "]

/-- What is found about the name of the service. -/
def nameFindings (root : Element) : List Finding :=
  let name := (root.find? "hal").bind fun hal => hal.child? "name"
  Finding.check (name.any fun n => !n.trimmedText.isEmpty) 15 "Missing <name> inside <hal>"

/-- What is found about the transport of the service. -/
def transportFindings (root : Element) : List Finding :=
  match root.find? "transport" with
  | none => [.fault "Missing <transport> element"]
  | some transport =>
      .credit 10 1 ::
        if transports.contains transport.trimmedText then []
        else [.fault ("Unknown transport: '" ++ transport.trimmedText ++ "'")]

/-- What is found in a manifest and its init script. -/
def findings (root : Element) (script : List Char) : List Finding :=
  .credit 35 1 ::
    (Finding.check (root.find? "hal").isSome 20 "Missing <hal> element"
      ++ nameFindings root
      ++ transportFindings root
      ++ Finding.check (scriptComplete script) 20
        ("Missing or incomplete init.rc section after '" ++ initMarker ++ "'"))

/-- Assesses a manifest and its init script. -/
def Sections.assess (parts : Sections) : Assessment :=
  if parts.manifest.isEmpty then .refused 0 "No XML content"
  else
    match parse parts.manifest with
    | .error fault => .refused 10 ("XML parse error: " ++ fault.message)
    | .ok root =>
        let count := (root.descendants.filter fun e => e.localName == "hal").length
        .graded (findings root parts.initScript)
          ("hal entries=" ++ toString count ++ ", init.rc="
            ++ if parts.initScript.isEmpty then "absent" else "present")

/-- Assesses an artifact that holds a manifest with its init script. -/
def assess (content : List Char) : Assessment :=
  (Sections.ofText content).assess

end Vetting.Vintf
