import Vetting.Artifact.Kind
import Vetting.Artifact.Verdict
import Vetting.Text.Search

/-! What a heuristic finds in an artifact, and the verdict that follows. Findings do not depend on
the credit that is asked for; only the verdict does. -/

namespace Vetting

/-- Something that a heuristic found. -/
inductive Finding where
  /-- A number of hundredths of credit, counted a number of times. -/
  | credit (hundredths times : Nat)
  /-- Something wrong. -/
  | fault (message : String)
  deriving DecidableEq, Repr

namespace Finding

/-- Credit for what holds, and nothing otherwise. -/
def bonus (holds : Bool) (hundredths : Nat) : List Finding :=
  if holds then [credit hundredths 1] else []

/-- Credit for what holds, and a fault otherwise. -/
def check (holds : Bool) (hundredths : Nat) (message : String) : List Finding :=
  if holds then [credit hundredths 1] else [fault message]

/-- What is found about the braces of a text. -/
def braces (text : List Char) (hundredths : Nat) : List Finding :=
  let opened := Text.countChar text '\x7b'
  let closed := Text.countChar text '\x7d'
  check (opened == closed) hundredths
    ("Unbalanced braces: " ++ toString opened ++ " open, " ++ toString closed ++ " close")

/-- The messages of the faults, in order. -/
def errors (findings : List Finding) : List String :=
  findings.filterMap fun
    | credit _ _ => none
    | fault message => some message

/-- The credit of the findings, added up in order. -/
def score {R : Type} [Scale R] (findings : List Finding) : R :=
  Scale.total (findings.filterMap fun
    | credit hundredths times => some (Scale.hundredths hundredths * Scale.whole times)
    | fault _ => none)

end Finding

/-- What a heuristic has to say about an artifact. -/
inductive Assessment where
  /-- The artifact cannot be read; it gets fixed credit and one error. -/
  | refused (hundredths : Nat) (error : String)
  /-- The artifact was looked at. -/
  | graded (findings : List Finding) (detail : Option String)
  deriving DecidableEq, Repr

/-- How a verdict follows from findings. -/
structure Standard where
  /-- An artifact with faults is never accepted. -/
  faultsVeto : Bool
  /-- An artifact that is not accepted loses a part of its credit. -/
  failurePenalised : Bool

/-- The standard for each kind: missing elements of markup cost credit but do not veto, and what is
checked against a grammar is penalised when it fails. -/
def ArtifactKind.standard : ArtifactKind → Standard
  | vintf | androidLayout => ⟨false, false⟩
  | aidl | build => ⟨true, true⟩
  | _ => ⟨true, false⟩

/-- The hundredths of its credit that a penalised artifact keeps. -/
def penaltyHundredths : Nat := 65

/-- The verdict on an assessed artifact: it is accepted when it has the credit that is asked for and
no fault vetoes it. -/
def Assessment.verdict {R : Type} [Scale R] (standard : Standard) (tool : String) (acceptAt : R) :
    Assessment → Verdict R
  | refused hundredths error => Verdict.reject (Scale.hundredths hundredths) [error] tool
  | graded findings detail =>
      let score : R := Finding.score findings
      let errors := Finding.errors findings
      let ok := Scale.atMost acceptAt score && (!standard.faultsVeto || errors.isEmpty)
      let reported :=
        if ok || !standard.failurePenalised then score
        else score * Scale.hundredths penaltyHundredths
      { Verdict.judge ok reported errors tool with detail := detail }

end Vetting
