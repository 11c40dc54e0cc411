import Vetting.Score.Scale
import Vetting.Text.Letters
import Vetting.Text.Search

/-! How many of the expected names an artifact mentions, in any letter case. -/

namespace Vetting

/-- Whether a name occurs in a text, both read in lower case. -/
def mentions (text : List Char) (name : String) : Bool :=
  Text.contains (Text.lower text) (Text.lower name.toList)

/-- The names that a text mentions. -/
def covered (text : List Char) (names : List String) : List String :=
  let lowered := Text.lower text
  names.filter fun name => Text.contains lowered (Text.lower name.toList)

/-- The fraction of the expected names that a text mentions, to four places; nothing is missed when
nothing is expected. -/
def coverageScore {R : Type} [Scale R] (text : List Char) (expected : List String) : R :=
  if expected.isEmpty then Scale.whole 1
  else
    Scale.round 4
      (Scale.whole (covered text expected).length / Scale.whole expected.length)

end Vetting
