import Vetting.Heuristic.Assessment
import Vetting.Markup.Element
import Vetting.Text.Quoted

/-! Layouts for Android: a container at the root, identifiers of the right form, some widget, and the
namespace of Android, under whatever prefix. What is missing costs credit but does not veto. -/

namespace Vetting.AndroidLayout

open Vetting.Text Vetting.Markup

/-- The namespace of Android. -/
def namespaceName : String := "http://schemas.android.com/apk/res/android"

/-- The elements that may stand at the root. -/
def containers : List String :=
  ["LinearLayout", "ConstraintLayout", "RelativeLayout", "FrameLayout", "ScrollView",
    "CoordinatorLayout"]

/-- The elements that one can see or touch. -/
def widgets : List String :=
  ["TextView", "Switch", "Button", "SeekBar", "CheckBox", "EditText", "ImageView"]

/-- The name of an element without prefix and package. -/
def shortName (e : Element) : String :=
  String.ofList ((splitChar '.' e.localName.toList).getLastD [])

/-- The prefix that an attribute binds to the namespace of Android. -/
def boundPrefix? (pair : String × String) : Option String :=
  if pair.2 == namespaceName then
    (afterStart? "xmlns:" pair.1.toList).map String.ofList
  else none

/-- The prefixes that elements bind to the namespace of Android. -/
def boundPrefixes (elements : List Element) : List String :=
  elements.flatMap fun e => e.attributes.filterMap boundPrefix?

/-- The value of an attribute when it is an identifier under one of the prefixes. -/
def identifier? (prefixes : List String) (pair : String × String) : Option String :=
  (splitOnce? [':'] pair.1.toList).bind fun parts =>
    if String.ofList parts.2 == "id" && prefixes.contains (String.ofList parts.1) then
      some pair.2
    else none

/-- The identifiers of elements, at most one of each. -/
def identifiers (elements : List Element) : List String :=
  let prefixes := "android" :: boundPrefixes elements
  elements.filterMap fun e => e.attributes.findSome? (identifier? prefixes)

/-- Whether an identifier has the right form. -/
def wellFormed (id : String) : Bool :=
  startsWith id.toList "@+id/" || startsWith id.toList "@id/"

/-- What is found about the identifiers. -/
def identifierFindings (ids : List String) : List Finding :=
  if ids.isEmpty then [.fault "No android:id attributes found"]
  else
    let bad := (ids.filter fun id => !wellFormed id).take 2
    .credit 20 1 ::
      if bad.isEmpty then []
      else [.fault ("android:id should use '@+id/name' format, bad: " ++ quoteList bad)]

/-- Assesses the tree of a layout. -/
def assessTree (root : Element) : Assessment :=
  let elements := root.descendants
  let ids := identifiers elements
  let shown := elements.filter fun e => widgets.contains (shortName e)
  .graded
    (.credit 35 1 ::
      (Finding.check (containers.contains (shortName root)) 20
          ("Unusual root element <" ++ shortName root ++ ">")
        ++ identifierFindings ids
        ++ Finding.check (!shown.isEmpty) 15 "No standard widget elements found"
        ++ Finding.check (!(boundPrefixes [root]).isEmpty) 10
          "Missing android namespace declaration"))
    ("ids=" ++ toString ids.length ++ ", widgets=" ++ toString shown.length)

/-- Assesses a layout. -/
def assess (content : List Char) : Assessment :=
  match parse content with
  | .error fault => .refused 10 ("XML parse error: " ++ fault.message)
  | .ok root => assessTree root

end Vetting.AndroidLayout
