import Vetting.Heuristic.Kinds
import Vetting.Text.Blank
import Vetting.Tool.Checker
import Vetting.Validation.Course

/-! Validating artifacts. A blank artifact and one that a precheck decides need nothing; otherwise a
tool is run when it is there, and the heuristic gives the verdict when it is not or cannot be
run. -/

namespace Vetting

/-- A failure inside a check: with a text, or with something that is none. -/
inductive CheckFailure where
  | text (message : String)
  | other
  deriving DecidableEq, Repr

/-- The wording of a failure. -/
def CheckFailure.message : CheckFailure → String
  | text message => message
  | other => "unknown panic"

variable {R : Type} [Scale R]

/-- The verdict of a check; a check that fails rejects the artifact with some credit. -/
def guarded (tool : String) : Except CheckFailure (Verdict R) → Verdict R
  | .ok verdict => verdict
  | .error failure =>
      Verdict.reject (Scale.hundredths 15) ["validator fault: " ++ failure.message] tool

/-- What became of the attempt to run a tool. -/
inductive ToolOutcome where
  | completed (output : ToolOutput)
  | timedOut (seconds : Nat)
  /-- The tool was not started, or its output was lost. -/
  | notStarted (reason : String)
  /-- The source could not be written. -/
  | noSource (reason : String)
  /-- There was no directory for results. -/
  | noDirectory (reason : String)
  deriving DecidableEq, Repr

/-- What a validation depends on. -/
structure Validator (R : Type) where
  /-- Where the tools are. -/
  tools : Toolbox
  /-- What becomes of a run of a program on a prepared source. -/
  run : Checker → Program → List Char → ToolOutcome
  /-- The credit from which on an artifact is accepted. -/
  thresholds : ArtifactKind → R
  /-- The heuristics, given the credit from which on they accept. -/
  heuristic : ArtifactKind → R → List Char → Except CheckFailure (Verdict R)

namespace Validator

/-- A validator on a host without tools. -/
def withoutTools (thresholds : ArtifactKind → R) : Validator R where
  tools := Toolbox.none
  run _ _ _ := .notStarted ""
  thresholds := thresholds
  heuristic kind acceptAt content := .ok (kind.heuristic acceptAt content)

/-- The checker for a kind and the program it runs, when all it needs is there. -/
def native? (v : Validator R) (kind : ArtifactKind) : Option (Checker × Program) := do
  let checker ← kind.checker?
  let program ← checker.locate v.tools
  return (checker, program)

/-- Whether a tool checks artifacts of a kind. -/
def nativeAvailable (v : Validator R) (kind : ArtifactKind) : Bool :=
  (v.native? kind).isSome

/-- The label of what checks artifacts of a kind. -/
def toolLabel (v : Validator R) (kind : ArtifactKind) : String :=
  match v.native? kind with
  | some (checker, _) => checker.label
  | none => kind.heuristicLabel

/-- The verdict of the heuristic. -/
def judge (v : Validator R) (kind : ArtifactKind) (content : List Char) : Verdict R :=
  guarded kind.heuristicLabel (v.heuristic kind (v.thresholds kind) content)

/-- The verdict that follows from the attempt to run a tool. -/
def conclude (v : Validator R) (kind : ArtifactKind) (checker : Checker) (content : List Char)
    (outcome : ToolOutcome) : Verdict R × Course :=
  match outcome with
  | .completed output => (checker.interpret output, .completed)
  | .timedOut seconds => (checker.timedOut seconds, .timedOut)
  | .notStarted reason => ((v.judge kind content).withNote reason, .heuristic .notStarted)
  | .noSource reason =>
      ((v.judge kind content).withNote ("scratch file unavailable: " ++ reason),
        .heuristic .noScratch)
  | .noDirectory reason =>
      ((v.judge kind content).withNote ("scratch dir unavailable: " ++ reason),
        .heuristic .noScratch)

/-- Validates an artifact, and tells the course that was taken. -/
def validate (v : Validator R) (kind : ArtifactKind) (content : List Char) :
    Verdict R × Course :=
  if Text.allBlank content then (Verdict.blank (v.toolLabel kind), .blank)
  else
    match kind.precheck? content with
    | some verdict => (verdict, .prechecked)
    | none =>
        match v.native? kind with
        | some (checker, program) =>
            v.conclude kind checker content (v.run checker program (checker.prepare content))
        | none => (v.judge kind content, .heuristic .noTool)

/-- Validates an artifact by its heuristic alone, and tells what it counts for. -/
def validateByHeuristic (v : Validator R) (kind : ArtifactKind) (content : List Char) :
    Verdict R × Counters :=
  if Text.allBlank content then (Verdict.blank kind.heuristicLabel, .zero)
  else (v.judge kind content, .fallback)

end Validator

end Vetting
