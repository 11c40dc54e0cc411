import Vetting.Artifact.Kind
import Vetting.Score.Scale

/-! The blended score of an artifact: its structural score, its syntax score and its coverage, with
fixed weights for its kind. -/

namespace Vetting

/-- How much each part of a score counts. -/
structure BlendWeights (R : Type) where
  structural : R
  syntactic : R
  coverage : R

/-- The parts of a score and their blend. -/
structure ScoreBreakdown (R : Type) where
  structural : R
  syntactic : R
  coverage : R
  blended : R
  deriving DecidableEq, Repr

variable {R : Type} [Scale R]

namespace BlendWeights

/-- Weights in hundredths. -/
def ofHundredths (structural syntactic coverage : Nat) : BlendWeights R :=
  ⟨Scale.hundredths structural, Scale.hundredths syntactic, Scale.hundredths coverage⟩

/-- The sum of the weights. -/
def sum (w : BlendWeights R) : R :=
  w.structural + w.syntactic + w.coverage

/-- The weighted sum of the parts, to four places. -/
def combine (w : BlendWeights R) (structural syntactic coverage : R) : R :=
  Scale.round 4 (w.structural * structural + w.syntactic * syntactic + w.coverage * coverage)

end BlendWeights

/-- The weights of a kind. -/
def ArtifactKind.weights : ArtifactKind → BlendWeights R
  | aidl => .ofHundredths 35 45 20
  | cpp => .ofHundredths 30 50 20
  | selinux => .ofHundredths 25 65 10
  | build => .ofHundredths 35 55 10
  | vintf => .ofHundredths 35 55 10
  | puml => .ofHundredths 40 50 10
  | androidApp => .ofHundredths 35 40 25
  | androidLayout => .ofHundredths 40 45 15
  | backend => .ofHundredths 30 50 20
  | backendModel => .ofHundredths 30 45 25
  | simulator => .ofHundredths 30 45 25
  | designDoc => .ofHundredths 50 40 10

/-- Clamps the parts of a score and blends them. -/
def blend (kind : ArtifactKind) (structural syntactic coverage : R) : ScoreBreakdown R :=
  let structural := Scale.clampUnit structural
  let syntactic := Scale.clampUnit syntactic
  let coverage := Scale.clampUnit coverage
  ⟨structural, syntactic, coverage, kind.weights.combine structural syntactic coverage⟩

end Vetting
