import Vetting.Artifact.Kind
import Vetting.Artifact.Verdict
import Vetting.Tool.Basic
import Vetting.Tool.Diagnostic

/-! How a tool checks an artifact: where it is, what it is given, and the verdict that follows from
what it puts out. -/

namespace Vetting

open Vetting.Text

/-- A way to check artifacts with a tool. -/
inductive Checker where
  | clang
  | checkpolicy
  | plantUml
  | kotlinc
  deriving DecidableEq, Repr

/-- The checker for a kind, when there is one. -/
def ArtifactKind.checker? : ArtifactKind → Option Checker
  | cpp => some .clang
  | selinux => some .checkpolicy
  | puml => some .plantUml
  | androidApp => some .kotlinc
  | _ => none

namespace Checker

/-- The label of a checker. -/
def label : Checker → String
  | clang => "clang++ --syntax-only"
  | checkpolicy => "checkpolicy"
  | plantUml => "plantuml.jar -syntax"
  | kotlinc => "kotlinc"

/-- The ending of the name of a source file. -/
def suffix : Checker → String
  | clang => ".cpp"
  | checkpolicy => ".te"
  | plantUml => ".puml"
  | kotlinc => ".kt"

/-- The program that a checker runs, when all it needs is there. -/
def locate (tools : Toolbox) : Checker → Option Program
  | clang => ((tools .clangPlusPlus).or (tools .clang)).map (⟨·, none⟩)
  | checkpolicy => (tools .checkpolicy).map (⟨·, none⟩)
  | plantUml => do
      let java ← tools .java
      let jar ← tools .plantUmlJar
      return ⟨java, some jar⟩
  | kotlinc => (tools .kotlinc).map (⟨·, none⟩)

/-- What is written to the source file. -/
def prepare (content : List Char) : Checker → List Char
  | clang => Prelude.prepend Prelude.cppLines content
  | checkpolicy => Prelude.prepend Prelude.policyLines content
  | plantUml => content
  | kotlinc => content

/-- The arguments for a source file and a directory for results. -/
def arguments (program : Program) (source results : String) : Checker → List String
  | clang =>
      ["--syntax-only", "-x", "c++", "-std=c++17", "-Wno-unknown-pragmas",
        "-Wno-unused-variable", "-Wno-unused-function", "-Wno-error", source]
  | checkpolicy => ["-M", "-C", "-o", "/dev/null", source]
  | plantUml => ["-jar"] ++ program.extra.toList ++ ["-syntax", source]
  | kotlinc => ["-nowarn", source, "-d", results]

/-- At most so many errors are copied from the output of a tool. -/
def reportedErrors : Checker → Nat
  | plantUml => 4
  | _ => 5

variable {R : Type} [Scale R]

/-- Rejection with the errors that a tool reported. -/
def rejected (checker : Checker) (errors : List String) : Verdict R :=
  Verdict.reject (partialCredit errors.length) (errors.take checker.reportedErrors) checker.label

/-- The lines of an output that contain one of some words, in any letter case. -/
def linesWith (words : List String) (output : List Char) : List String :=
  ((lines output).filter fun line => words.any (hasAnyCase line)).map String.ofList

/-- The verdict that follows from the output of a finished run. -/
def interpret (output : ToolOutput) : Checker → Verdict R
  | clang =>
      let errors := cppErrors output.stderr
      if errors.isEmpty then
        (Verdict.pass clang.label).withDetail "Syntax OK (VHAL stubs injected)"
      else (rejected clang errors).withDetail (toString errors.length ++ " syntax error(s)")
  | checkpolicy =>
      if output.succeeded && !hasAnyCase output.combined "error" then
        (Verdict.pass checkpolicy.label).withDetail "policy compiled"
      else
        let errors := linesWith ["error", "undefined"] output.combined
        (rejected checkpolicy errors).withDetail
          ("exit " ++ toString output.exitCode ++ ", " ++ toString errors.length
            ++ " error line(s)")
  | plantUml =>
      if output.succeeded && !hasAnyCase output.combined "error" then Verdict.pass plantUml.label
      else rejected plantUml (linesWith ["error"] output.combined)
  | kotlinc =>
      let errors := kotlinErrors output.stderr
      if errors.isEmpty then
        (Verdict.pass kotlinc.label).withDetail "Syntax OK (platform SDK references filtered)"
      else rejected kotlinc errors

/-- The verdict on a run that took longer than it was given. -/
def timedOut (checker : Checker) (seconds : Nat) : Verdict R :=
  Verdict.reject (partialCredit 1)
    [checker.label ++ " timed out after " ++ toString seconds ++ "s"] checker.label

end Checker

end Vetting
