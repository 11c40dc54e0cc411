import Mathlib.Logic.Function.Basic
import Vetting.Proofs.Json.Records
import Vetting.Settings.Configuration

/-! What the document of a configuration says. It may give a value to each field, and to the threshold of
each kind, on its own; what it does not give keeps its default.
-/

namespace Vetting

-----------------------------------------------------------------------------------------
-- Records
-----------------------------------------------------------------------------------------

namespace Thresholds

/-- Thresholds with given ones for some kinds. -/
def given (start : Thresholds Float) (values : ArtifactKind → Option Float)
    (kinds : List ArtifactKind) : Thresholds Float :=
  fun kind => if kind ∈ kinds then (values kind).getD (start kind) else start kind

variable {start result : Thresholds Float} {kind : ArtifactKind}

end Thresholds

-----------------------------------------------------------------------------------------
-- The fields of the configuration
-----------------------------------------------------------------------------------------

/-- A layer that gives no values. -/
def Overrides.nothing : Overrides := ⟨none, none⟩

namespace Configuration

/-- The values that a file gives. -/
structure FileValues where
  toolTimeout : Option Nat
  maxConcurrency : Option Nat
  threshold : ArtifactKind → Option Float
  jarPaths : Option (List String)

namespace FileValues

end FileValues

end Configuration

end Vetting
