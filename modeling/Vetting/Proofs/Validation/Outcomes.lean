import Mathlib.Tactic.MkIffOfInductiveProp
import Vetting.Proofs.Text.Lowering
import Vetting.Proofs.Validation.WithoutTools

/-! What follows from the output of a tool. The verdict of a compiler is read from its error lines,
and its exit code has no part in it: a failed run without such lines is accepted. A verdict that
follows from the exit code copies the lines with a complaint, and a failed run without such lines is
rejected without errors. Every other rejection has at least one.
-/

namespace Vetting

open Text

variable {R : Type} [Scale R]

namespace Verdict

variable {verdict : Verdict R} {credit : R} {errors : List String} {tool detail : String}

@[simp] theorem pass_ok : (pass tool : Verdict R).ok = true := rfl

@[simp] theorem pass_errors : (pass tool : Verdict R).errors = [] := rfl

@[simp] theorem reject_ok : (reject credit errors tool).ok = false := rfl

@[simp] theorem reject_errors : (reject credit errors tool).errors = errors := rfl

omit [Scale R] in
@[simp] theorem withDetail_ok : (verdict.withDetail detail).ok = verdict.ok := rfl

omit [Scale R] in
@[simp] theorem withDetail_errors : (verdict.withDetail detail).errors = verdict.errors := rfl

end Verdict

-----------------------------------------------------------------------------------------
-- Acceptance by a compiler
-----------------------------------------------------------------------------------------

namespace Checker

/-- An error line of a compiler that is excused: it points into the declarations that stand before a
C++ source, or is about a name of the platform that does not resolve.
-/
def Excuses : Checker → List Char → Prop
  | clang, line =>
      (∃ number, diagnosticLine? line = some number ∧ number ≤ Prelude.cppLineCount)
      ∨ has line stubMark = true
  | kotlinc, line =>
      ∃ found,
        unresolvedPattern.first? line = some found
        ∧ String.ofList (found.text 1) ∈ platformNames
  | _, _ => False

/-- The failure of a run is explained away: there are error lines, and all of them are excused. -/
def ExplainsAway (checker : Checker) (output : ToolOutput) : Prop :=
  errorLines output.stderr ≠ [] ∧ ∀ line ∈ errorLines output.stderr, checker.Excuses line

theorem inStubs_iff {line : List Char} : inStubs line = true ↔ clang.Excuses line := by
  simp [inStubs, Excuses, Option.any_eq_true]

theorem aboutPlatform_iff {line : List Char}
    : aboutPlatform line = true ↔ kotlinc.Excuses line := by
  simp [aboutPlatform, Excuses, Option.any_eq_true]

theorem cppErrors_eq_nil {stderr : List Char}
    : cppErrors stderr = [] ↔ ∀ line ∈ errorLines stderr, clang.Excuses line := by
  simp [cppErrors, List.filter_eq_nil_iff, ← inStubs_iff]

theorem kotlinErrors_eq_nil {stderr : List Char}
    : kotlinErrors stderr = [] ↔ ∀ line ∈ errorLines stderr, kotlinc.Excuses line := by
  simp [kotlinErrors, List.filter_eq_nil_iff, ← aboutPlatform_iff]

/-- A compiler accepts exactly when all of its error lines are excused, however its run ended. -/
theorem interpret_ok_iff {checker : Checker} (compiler : checker = clang ∨ checker = kotlinc)
    (output : ToolOutput)
    : (checker.interpret output : Verdict R).ok = true
      ↔ ∀ line ∈ errorLines output.stderr, checker.Excuses line := by
  obtain rfl | rfl := compiler
  · rw [← cppErrors_eq_nil]
    cases known : cppErrors output.stderr <;> simp [interpret, known, rejected]
  · rw [← kotlinErrors_eq_nil]
    cases known : kotlinErrors output.stderr <;> simp [interpret, known, rejected]

end Checker

namespace Validator

/-- What the verdict of a compiler on a run that has ended says: it accepts exactly when all error
lines are excused. So it is not deceived by a failed run that reports errors, but a failed run
without error lines is accepted all the same, be it that the compiler was killed.
-/
theorem compiled_ok_iff (v : Validator R) (kind : ArtifactKind) (content : List Char)
    (checker : Checker) (output : ToolOutput) (compiled : kind = .cpp ∨ kind = .androidApp)
    (checks : kind.checker? = some checker)
    : ((v.conclude kind checker content (.completed output)).1.ok = true
        ↔ ∀ line ∈ errorLines output.stderr, checker.Excuses line)
      ∧ ((output.exitCode ≠ 0
          → (v.conclude kind checker content (.completed output)).1.ok = true
          → checker.ExplainsAway output)
        ↔ output.exitCode = 0 ∨ errorLines output.stderr ≠ []) := by
  have compiler : checker = .clang ∨ checker = .kotlinc := by
    obtain rfl | rfl := compiled
    · exact .inl (Option.some.inj checks).symm
    · exact .inr (Option.some.inj checks).symm
  have accepted : (v.conclude kind checker content (.completed output)).1.ok = true
      ↔ ∀ line ∈ errorLines output.stderr, checker.Excuses line :=
    Checker.interpret_ok_iff compiler output
  refine ⟨accepted, ?_⟩
  rw [accepted]
  constructor
  · intro lawful
    by_cases ended : output.exitCode = 0
    · exact .inl ended
    · refine .inr fun silent => ?_
      exact (lawful ended (by simp [silent])).1 silent
  · rintro (ended | reported) failed excused
    · exact absurd ended failed
    · exact ⟨reported, excused⟩

/-- What a Kotlin compiler puts out that fails for want of the platform. -/
def withoutPlatform : ToolOutput :=
  ⟨1, [], "F.kt:3:8: error: unresolved reference: R\n".toList⟩

theorem compiled_ok_iff_withoutPlatform
    : ∃ v : Validator Exact,
        ArtifactKind.androidApp.checker? = some .kotlinc
        ∧ withoutPlatform.exitCode ≠ 0
        ∧ (v.conclude .androidApp .kotlinc [] (.completed withoutPlatform)).1.ok = true
        ∧ Checker.kotlinc.ExplainsAway withoutPlatform := by
  let v : Validator Exact := withoutTools fun _ => Scale.whole 0
  have failed : withoutPlatform.exitCode ≠ 0 := by decide
  have reported : errorLines withoutPlatform.stderr ≠ [] := by decide +kernel
  have accepted :
      (v.conclude .androidApp .kotlinc [] (.completed withoutPlatform)).1.ok = true := by
    decide +kernel
  have lawful := (compiled_ok_iff v .androidApp [] .kotlinc withoutPlatform (.inr rfl) rfl).2
  exact ⟨v, rfl, failed, accepted, lawful.mpr (.inr reported) failed accepted⟩

/-- A host whose C++ compiler is killed before it says anything. -/
def killedCompiler : Rehearsal where
  installed tool := if tool = .clangPlusPlus then some (.standIn ⟨[], [], false, none, 0⟩) else none
  limit := 1000
  hasScratch := true

/-- A source of one line. -/
def plainSource : List Char := "int x;".toList

/-- A compiler that was killed, without a word, accepts. -/
theorem killed_compiler_accepted
    : ∃ v : Validator Exact, ∃ output,
        v.run .clang ⟨"tools/clang++", none⟩ (Checker.clang.prepare plainSource) = .completed output
        ∧ output.exitCode = -1
        ∧ (v.validate .cpp plainSource).1
          = ⟨true, .fraction 1, [], "clang++ --syntax-only", some "Syntax OK (VHAL stubs injected)"⟩
        ∧ ¬ Checker.clang.ExplainsAway output :=
  ⟨killedCompiler.validator fun _ => Scale.whole 0, ⟨-1, [], []⟩, by decide +kernel, rfl,
    by decide +kernel, fun explained => explained.1 rfl⟩

-----------------------------------------------------------------------------------------
-- Rejection by a tool
-----------------------------------------------------------------------------------------

end Validator

namespace Checker

/-- The words that a tool complains with, where its exit code decides too. -/
def complaints : Checker → List String
  | checkpolicy => ["error", "undefined"]
  | plantUml => ["error"]
  | clang | kotlinc => []

/-- A run of a tool whose exit code decides has failed, and no line that it put out complains. -/
@[mk_iff]
structure FailsSilently (checker : Checker) (output : ToolOutput) : Prop where
  coded : checker = checkpolicy ∨ checker = plantUml
  failed : output.exitCode ≠ 0
  silent : ∀ line ∈ lines output.combined, ∀ word ∈ checker.complaints, hasAnyCase line word = false

theorem linesWith_eq_nil {words : List String} {text : List Char}
    : linesWith words text = []
      ↔ ∀ line ∈ lines text, ∀ word ∈ words, hasAnyCase line word = false := by
  simp [linesWith, List.filter_eq_nil_iff]

/-- A complaint in an output is in a line of it. -/
theorem exists_line_of_hasAnyCase {text : List Char} (complains : hasAnyCase text "error" = true)
    : ∃ line ∈ lines text, hasAnyCase line "error" = true := by
  have stands := contains_iff.mp complains
  obtain ⟨line, member, inside⟩ :=
    exists_line_of_infix_lower (by decide) (by decide) (by decide) stands
  exact ⟨line, member, contains_iff.mpr inside⟩

/-- A run does not pass, and no line complains, exactly when it has failed in silence: what
complains in the whole output complains in a line of it.
-/
theorem silent_iff {words : List String} (listed : "error" ∈ words) (output : ToolOutput)
    : (output.succeeded && !hasAnyCase output.combined "error") = false
        ∧ linesWith words output.combined = []
      ↔ output.exitCode ≠ 0
        ∧ ∀ line ∈ lines output.combined, ∀ word ∈ words, hasAnyCase line word = false := by
  rw [linesWith_eq_nil]
  refine and_congr_left fun silent => ?_
  have noComplaint : hasAnyCase output.combined "error" = false := by
    rw [← Bool.not_eq_true]
    intro complains
    obtain ⟨line, member, inside⟩ := exists_line_of_hasAnyCase complains
    rw [silent line member "error" listed] at inside
    exact absurd inside (by decide)
  simp [noComplaint, ToolOutput.succeeded]

/-- A tool rejects a run without errors exactly when its exit code decides and the run failed in
silence.
-/
theorem interpret_without_errors_iff {checker : Checker} {output : ToolOutput}
    : (checker.interpret output : Verdict R).ok = false
        ∧ (checker.interpret output : Verdict R).errors = []
      ↔ checker.FailsSilently output := by
  rw [failsSilently_iff]
  cases checker with
  | clang =>
      cases known : cppErrors output.stderr <;> simp [interpret, known, rejected, reportedErrors]
  | kotlinc =>
      cases known : kotlinErrors output.stderr <;> simp [interpret, known, rejected, reportedErrors]
  | checkpolicy | plantUml =>
      rw [← silent_iff (by simp [complaints])]
      simp only [interpret]
      cases output.succeeded && !hasAnyCase output.combined "error" <;>
        simp [rejected, reportedErrors, complaints]

end Checker

namespace Validator

/-- What a tool that has been heard rejects it rejects with an error, unless its exit code decides
and it failed without a line that complains.
-/
theorem rejected_without_errors_iff (v : Validator R) (kind : ArtifactKind) (content : List Char)
    (checker : Checker) (outcome : ToolOutcome) (heard : outcome.note? = none)
    : ((v.conclude kind checker content outcome).1.ok = false
        ∧ (v.conclude kind checker content outcome).1.errors = [])
      ↔ ∃ output, outcome = .completed output ∧ checker.FailsSilently output := by
  cases outcome with
  | completed output => simp [conclude, Checker.interpret_without_errors_iff]
  | timedOut seconds => simp [conclude, Checker.timedOut]
  | notStarted | noSource | noDirectory => simp [ToolOutcome.note?] at heard

/-- What a policy compiler puts out that ends well in spite of a complaint. -/
def complaining : ToolOutput :=
  ⟨0, "checkpolicy: loading policy\n".toList, "a.te:9:ERROR 'syntax error'\n".toList⟩

theorem rejected_without_errors_iff_complaining
    : ∃ v : Validator Exact,
        (ToolOutcome.completed complaining).note? = none
        ∧ (v.conclude .selinux .checkpolicy [] (.completed complaining)).1.ok = false
        ∧ (v.conclude .selinux .checkpolicy [] (.completed complaining)).1.errors ≠ [] := by
  let v : Validator Exact := withoutTools fun _ => Scale.whole 0
  have rejected : (v.conclude .selinux .checkpolicy [] (.completed complaining)).1.ok = false := by
    decide +kernel
  refine ⟨v, rfl, rejected, fun unexplained => ?_⟩
  obtain ⟨output, same, silent⟩ :=
    (rejected_without_errors_iff v .selinux [] .checkpolicy _ rfl).mp ⟨rejected, unexplained⟩
  obtain rfl := ToolOutcome.completed.inj same
  exact silent.failed rfl

/-- A host whose diagram tool fails before it says anything. -/
def silentTool : Rehearsal where
  installed tool :=
    match tool with
    | .java | .plantUmlJar => some (.standIn ⟨[], [], false, some 1, 0⟩)
    | _ => none
  limit := 1000
  hasScratch := true

/-- A diagram of three lines, with both markers. -/
def markedDiagram : List Char := "@startuml\nA -> B\n@enduml\n".toList

/-- A tool that fails without a word rejects without an error or a summary. -/
theorem silent_tool_without_errors
    : ∃ v : Validator Exact,
        v.native? .puml = some (.plantUml, ⟨"tools/java", some "tools/plantuml.jar"⟩)
        ∧ v.run .plantUml ⟨"tools/java", some "tools/plantuml.jar"⟩ markedDiagram
          = .completed ⟨1, [], []⟩
        ∧ (v.validate .puml markedDiagram).1
          = ⟨false, .fraction (85 / 100), [], "plantuml.jar -syntax", none⟩ :=
  ⟨silentTool.validator fun _ => Scale.whole 0, by decide +kernel, by decide +kernel,
    by decide +kernel⟩

end Validator

end Vetting
