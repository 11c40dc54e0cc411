import Vetting.Score.Scale

/-! The verdict on one artifact. Its score lies between zero and one and has three places. -/

namespace Vetting

/-- The verdict on one artifact. -/
structure Verdict (R : Type) where
  ok : Bool
  score : R
  /-- What was found wrong, in the order in which it was found. -/
  errors : List String
  /-- What came to the verdict. -/
  tool : String
  /-- A summary of what was looked at. -/
  detail : Option String
  deriving DecidableEq, Repr

namespace Verdict

variable {R : Type} [Scale R]

/-- A verdict without a summary. -/
def judge (ok : Bool) (score : R) (errors : List String) (tool : String) : Verdict R :=
  ⟨ok, Scale.round 3 (Scale.clampUnit score), errors, tool, none⟩

/-- Acceptance with full credit. -/
def pass (tool : String) : Verdict R :=
  judge true (Scale.whole 1) [] tool

/-- Rejection with partial credit. -/
def reject (score : R) (errors : List String) (tool : String) : Verdict R :=
  judge false score errors tool

/-- What is said about a blank artifact. -/
def emptyOutput : String := "empty output"

/-- The verdict on a blank artifact. -/
def blank (tool : String) : Verdict R :=
  judge false (Scale.whole 0) [emptyOutput] tool

/-- Adds a summary. -/
def withDetail (verdict : Verdict R) (detail : String) : Verdict R :=
  { verdict with detail := some detail }

/-- Appends a note to the summary. -/
def withNote (verdict : Verdict R) (note : String) : Verdict R :=
  match verdict.detail with
  | some detail => verdict.withDetail (detail ++ "; " ++ note)
  | none => verdict.withDetail note

end Verdict

end Vetting
