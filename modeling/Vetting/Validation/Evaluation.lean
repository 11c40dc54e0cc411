import Vetting.Score.Blend
import Vetting.Score.Checklist
import Vetting.Score.Coverage
import Vetting.Validation.Validator

/-! Evaluating artifacts: the verdict of the validation, and the blend of the structural score, the
score of the verdict and the coverage. -/

namespace Vetting

/-- An artifact to evaluate. -/
structure ArtifactInput where
  kind : ArtifactKind
  content : List Char
  /-- The names it is expected to mention. -/
  expected : List String
  deriving DecidableEq, Repr

/-- The verdict on an artifact and its scores. -/
structure Evaluation (R : Type) where
  kind : ArtifactKind
  validation : Verdict R
  breakdown : ScoreBreakdown R
  deriving DecidableEq, Repr

namespace Validator

variable {R : Type} [Scale R]

/-- Evaluates an artifact, and tells the course that its validation took. -/
def evaluate (v : Validator R) (input : ArtifactInput) : Evaluation R × Course :=
  let (verdict, course) := v.validate input.kind input.content
  let structural : R := structuralScore input.kind input.content
  let coverage : R := coverageScore input.content input.expected
  (⟨input.kind, verdict, blend input.kind structural verdict.score coverage⟩, course)

/-- The evaluations of several artifacts, in their order. -/
def evaluateAll (v : Validator R) (inputs : List ArtifactInput) : List (Evaluation R × Course) :=
  inputs.map v.evaluate

end Validator

/-- The blended score of each kind that was evaluated: that of its last artifact. -/
def scoresByKind {R : Type} (evaluations : List (Evaluation R)) : List (ArtifactKind × R) :=
  ArtifactKind.all.filterMap fun kind =>
    (evaluations.reverse.find? fun e => e.kind == kind).map fun e => (kind, e.breakdown.blended)

/-- What several courses count for. -/
def totalCounters (courses : List Course) : Counters :=
  courses.foldl (fun sum course => sum + course.counters) .zero

/-- At least one artifact is evaluated at a time. -/
def atLeastOne (concurrency : Nat) : Nat :=
  max concurrency 1

end Vetting
