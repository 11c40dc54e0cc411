import Vetting.Validation.Validator

/-! The ways in which a validation comes to its verdict. There is one rule for each way, a
validation takes exactly one of them, and the tool that its verdict names tells whether an
installed tool or a heuristic had the last word.
-/

namespace Vetting

variable {R : Type}

-----------------------------------------------------------------------------------------
-- Notes
-----------------------------------------------------------------------------------------

/-- A verdict is another one with a note at the end of its summary. -/
structure Verdict.Notes (verdict plain : Verdict R) (note : String) : Prop where
  ok : verdict.ok = plain.ok
  score : verdict.score = plain.score
  errors : verdict.errors = plain.errors
  tool : verdict.tool = plain.tool
  detail_some : ∀ detail,
    plain.detail = some detail → verdict.detail = some (detail ++ "; " ++ note)
  detail_none : plain.detail = none → verdict.detail = some note

theorem Verdict.withNote_notes (plain : Verdict R) (note : String)
    : (plain.withNote note).Notes plain note := by
  cases plain with
  | mk ok score errors tool detail =>
      cases detail with
      | none => exact ⟨rfl, rfl, rfl, rfl, fun _ => nofun, fun _ => rfl⟩
      | some detail => exact ⟨rfl, rfl, rfl, rfl, fun _ same => by cases same; rfl, nofun⟩

@[simp] theorem Verdict.withNote_tool (verdict : Verdict R) (note : String)
    : (verdict.withNote note).tool = verdict.tool :=
  (verdict.withNote_notes note).tool

@[simp] theorem Verdict.withNote_score (verdict : Verdict R) (note : String)
    : (verdict.withNote note).score = verdict.score :=
  (verdict.withNote_notes note).score

-----------------------------------------------------------------------------------------
-- The tool that a verdict names
-----------------------------------------------------------------------------------------

variable [Scale R]

@[simp] theorem Verdict.blank_tool (tool : String) : (blank tool : Verdict R).tool = tool := rfl

theorem Assessment.verdict_tool (standard : Standard) (tool : String) (acceptAt : R)
    (assessment : Assessment)
    : (assessment.verdict standard tool acceptAt).tool = tool := by
  cases assessment <;> rfl

theorem ArtifactKind.heuristic_tool (kind : ArtifactKind) (acceptAt : R) (content : List Char)
    : (kind.heuristic acceptAt content).tool = kind.heuristicLabel :=
  Assessment.verdict_tool _ _ _ _

/-- Nothing but a diagram that lacks a marker is decided before anything runs. -/
theorem ArtifactKind.precheck?_eq_some {kind : ArtifactKind} {content : List Char}
    {verdict : Verdict R} (decided : kind.precheck? content = some verdict)
    : kind = .puml
      ∧ ∃ credit message,
          missingMarker? content = some (credit, message)
          ∧ verdict = .reject (Scale.hundredths credit) [message] kind.heuristicLabel := by
  cases kind <;> simp only [precheck?, Option.map_eq_some_iff, reduceCtorEq] at decided
  case puml =>
    obtain ⟨⟨credit, message⟩, missing, rfl⟩ := decided
    exact ⟨rfl, credit, message, missing, rfl⟩

theorem ArtifactKind.precheck_tool {kind : ArtifactKind} {content : List Char}
    {verdict : Verdict R} (decided : kind.precheck? content = some verdict)
    : verdict.tool = kind.heuristicLabel := by
  obtain ⟨-, credit, message, -, rfl⟩ := precheck?_eq_some decided
  rfl

theorem Checker.interpret_tool (output : ToolOutput) (checker : Checker)
    : (checker.interpret output : Verdict R).tool = checker.label := by
  cases checker <;> simp only [interpret, rejected]
  all_goals split <;> rfl

theorem Checker.timedOut_tool (checker : Checker) (seconds : Nat)
    : (checker.timedOut seconds : Verdict R).tool = checker.label := rfl

/-- No heuristic goes by the name of a tool. -/
theorem ArtifactKind.heuristicLabel_ne_label (kind : ArtifactKind) (checker : Checker)
    : kind.heuristicLabel ≠ checker.label := by
  cases kind <;> cases checker <;> decide

namespace Validator

variable {v : Validator R} {kind : ArtifactKind} {content : List Char} {course : Course}
  {verdict : Verdict R} {checker : Checker} {program : Program}

/-- The heuristics of a validator are those of the kinds, as far as they do not fail. -/
def Ordinary (v : Validator R) : Prop :=
  ∀ kind acceptAt content verdict,
    v.heuristic kind acceptAt content = .ok verdict
    → verdict = kind.heuristic acceptAt content

theorem ordinary_withoutTools (thresholds : ArtifactKind → R)
    : (withoutTools thresholds).Ordinary :=
  fun _ _ _ _ given => (Except.ok.inj given).symm

/-- A heuristic that fails is named no less than one that gives a verdict. -/
theorem Ordinary.judge_tool (ordinary : v.Ordinary) (kind : ArtifactKind) (content : List Char)
    : (v.judge kind content).tool = kind.heuristicLabel := by
  unfold judge
  cases given : v.heuristic kind (v.thresholds kind) content with
  | error failure => rfl
  | ok verdict =>
      rw [ordinary _ _ _ _ given]
      exact kind.heuristic_tool _ _

omit [Scale R] in
theorem checker_of_native (located : v.native? kind = some (checker, program))
    : kind.checker? = some checker := by
  cases known : kind.checker? <;> simp [native?, known, Option.bind_eq_some_iff] at located
  rw [located.2]

-----------------------------------------------------------------------------------------
-- The ways of a validation
-----------------------------------------------------------------------------------------

/-- The courses that a validation may take, each with what leads to it and the verdict at its
end.
-/
inductive Takes (v : Validator R) (kind : ArtifactKind) (content : List Char)
    : Course → Verdict R → Prop where
  | blank (empty : Text.allBlank content = true)
    : Takes v kind content .blank (.blank (v.toolLabel kind))
  | prechecked {verdict : Verdict R} (something : Text.allBlank content = false)
    (decided : kind.precheck? content = some verdict)
    : Takes v kind content .prechecked verdict
  | completed {checker : Checker} {program : Program} {output : ToolOutput}
    (something : Text.allBlank content = false)
    (undecided : (kind.precheck? content : Option (Verdict R)) = none)
    (located : v.native? kind = some (checker, program))
    (ended : v.run checker program (checker.prepare content) = .completed output)
    : Takes v kind content .completed (checker.interpret output)
  | timedOut {checker : Checker} {program : Program} {seconds : Nat}
    (something : Text.allBlank content = false)
    (undecided : (kind.precheck? content : Option (Verdict R)) = none)
    (located : v.native? kind = some (checker, program))
    (late : v.run checker program (checker.prepare content) = .timedOut seconds)
    : Takes v kind content .timedOut (checker.timedOut seconds)
  | noTool (something : Text.allBlank content = false)
    (undecided : (kind.precheck? content : Option (Verdict R)) = none)
    (missing : v.native? kind = none)
    : Takes v kind content (.heuristic .noTool) (v.judge kind content)
  | noSource {checker : Checker} {program : Program} {reason : String}
    (something : Text.allBlank content = false)
    (undecided : (kind.precheck? content : Option (Verdict R)) = none)
    (located : v.native? kind = some (checker, program))
    (unwritten : v.run checker program (checker.prepare content) = .noSource reason)
    : Takes v kind content (.heuristic .noScratch)
      ((v.judge kind content).withNote ("scratch file unavailable: " ++ reason))
  | noDirectory {checker : Checker} {program : Program} {reason : String}
    (something : Text.allBlank content = false)
    (undecided : (kind.precheck? content : Option (Verdict R)) = none)
    (located : v.native? kind = some (checker, program))
    (absent : v.run checker program (checker.prepare content) = .noDirectory reason)
    : Takes v kind content (.heuristic .noScratch)
      ((v.judge kind content).withNote ("scratch dir unavailable: " ++ reason))
  | notStarted {checker : Checker} {program : Program} {reason : String}
    (something : Text.allBlank content = false)
    (undecided : (kind.precheck? content : Option (Verdict R)) = none)
    (located : v.native? kind = some (checker, program))
    (failed : v.run checker program (checker.prepare content) = .notStarted reason)
    : Takes v kind content (.heuristic .notStarted) ((v.judge kind content).withNote reason)

/-- The rules describe the validation: it comes to a verdict on a course exactly when a rule says
so. In particular it takes some course, and only one.
-/
theorem takes_iff
    : v.Takes kind content course verdict ↔ v.validate kind content = (verdict, course) := by
  constructor
  · intro takes
    cases takes <;> simp_all [validate, conclude]
  · intro validated
    cases empty : Text.allBlank content with
    | true =>
        simp only [validate, empty, if_true, Prod.mk.injEq] at validated
        obtain ⟨rfl, rfl⟩ := validated
        exact .blank empty
    | false =>
        cases decided : (kind.precheck? content : Option (Verdict R)) with
        | some early =>
            simp only [validate, empty, decided, Bool.false_eq_true, if_false,
              Prod.mk.injEq] at validated
            obtain ⟨rfl, rfl⟩ := validated
            exact .prechecked empty decided
        | none =>
            cases located : v.native? kind with
            | none =>
                simp only [validate, empty, decided, located, Bool.false_eq_true, if_false,
                  Prod.mk.injEq] at validated
                obtain ⟨rfl, rfl⟩ := validated
                exact .noTool empty decided located
            | some found =>
                obtain ⟨checker, program⟩ := found
                simp only [validate, empty, decided, located, Bool.false_eq_true,
                  if_false] at validated
                cases ended : v.run checker program (checker.prepare content)
                all_goals
                  simp only [conclude, ended, Prod.mk.injEq] at validated
                  obtain ⟨rfl, rfl⟩ := validated
                case completed => exact .completed empty decided located ended
                case timedOut => exact .timedOut empty decided located ended
                case notStarted => exact .notStarted empty decided located ended
                case noSource => exact .noSource empty decided located ended
                case noDirectory => exact .noDirectory empty decided located ended

/-- Whether the verdict at the end of a course is that of an installed tool: it ran up to its end
or up to its limit, or it would have, had there been anything to look at.
-/
def ByTool (v : Validator R) (kind : ArtifactKind) (course : Course) : Prop :=
  course = .completed ∨ course = .timedOut ∨ course = .blank ∧ v.nativeAvailable kind = true

/-- The verdict names the tool where an installed one had the last word, and the heuristic of the
kind everywhere else.
-/
theorem Takes.tool (takes : v.Takes kind content course verdict) (ordinary : v.Ordinary)
    : v.ByTool kind course
        ∧ (∃ checker, kind.checker? = some checker ∧ verdict.tool = checker.label)
      ∨ ¬ v.ByTool kind course ∧ verdict.tool = kind.heuristicLabel := by
  cases takes with
  | blank empty =>
      cases located : v.native? kind with
      | none =>
          exact .inr
            ⟨by simp [ByTool, nativeAvailable, located], by simp [toolLabel, located]⟩
      | some found =>
          obtain ⟨checker, program⟩ := found
          exact .inl ⟨by simp [ByTool, nativeAvailable, located], checker,
            checker_of_native located, by simp [toolLabel, located]⟩
  | prechecked _ decided => exact .inr ⟨by simp [ByTool], ArtifactKind.precheck_tool decided⟩
  | completed _ _ located _ =>
      exact .inl ⟨.inl rfl, _, checker_of_native located, Checker.interpret_tool _ _⟩
  | timedOut _ _ located _ =>
      exact .inl ⟨.inr (.inl rfl), _, checker_of_native located, Checker.timedOut_tool _ _⟩
  | noTool => exact .inr ⟨by simp [ByTool], ordinary.judge_tool _ _⟩
  | noSource | noDirectory | notStarted =>
      exact .inr ⟨by simp [ByTool], by simp [ordinary.judge_tool]⟩

end Validator

end Vetting
