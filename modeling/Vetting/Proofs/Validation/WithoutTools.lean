import Vetting.Proofs.Validation.Paths
import Vetting.Score.Exact
import Vetting.Validation.Rehearsal

/-! Validations without a tool. A tool that cannot be run leaves the verdict that a host without
tools gives, with a note of what went wrong. On such a host a validation and the heuristic alone
come to one verdict, except on a diagram that lacks a marker: only the validation turns it away for
that.
-/

namespace Vetting

variable {R : Type} [Scale R]

/-- The note on a tool that could not be run, or whose output was lost. -/
def ToolOutcome.note? : ToolOutcome → Option String
  | completed _ | timedOut _ => none
  | notStarted reason => some reason
  | noSource reason => some ("scratch file unavailable: " ++ reason)
  | noDirectory reason => some ("scratch dir unavailable: " ++ reason)

-----------------------------------------------------------------------------------------
-- Prechecks
-----------------------------------------------------------------------------------------

theorem missingMarker?_eq_none {content : List Char}
    : missingMarker? content = none
      ↔ Text.has content "@startuml" = true ∧ Text.has content "@enduml" = true := by
  unfold missingMarker?
  cases Text.has content "@startuml" <;> cases Text.has content "@enduml" <;> simp

theorem missingMarker?_message {content : List Char} {credit : Nat} {message : String}
    (missing : missingMarker? content = some (credit, message))
    : message = "Missing @startuml" ∨ message = "Missing @enduml" := by
  unfold missingMarker? at missing
  split at missing
  · simp_all
  · split at missing <;> simp_all

/-- Everything but a diagram that lacks a marker passes the precheck of its kind. -/
theorem ArtifactKind.precheck?_eq_none {kind : ArtifactKind} {content : List Char}
    : (kind.precheck? content : Option (Verdict R)) = none
      ↔ kind ≠ .puml
        ∨ Text.has content "@startuml" = true ∧ Text.has content "@enduml" = true := by
  rw [← missingMarker?_eq_none]
  cases kind <;> simp [precheck?]

/-- The failure of a heuristic does not read like a missing marker. -/
theorem failure_ne_missing {message : String}
    (missing : message = "Missing @startuml" ∨ message = "Missing @enduml") (reason : String)
    : "validator fault: " ++ reason ≠ message := by
  intro same
  have first := congrArg (fun text : String => text.toList.head?) same
  obtain rfl | rfl := missing <;> simp at first

namespace Validator

variable {v plain : Validator R} {kind : ArtifactKind} {content : List Char} {checker : Checker}
  {note : String}

/-- A heuristic does not say what the precheck says: it counts the lines of a diagram, unless it
fails.
-/
theorem Ordinary.judge_ne_precheck (ordinary : v.Ordinary) {verdict : Verdict R}
    (decided : kind.precheck? content = some verdict)
    : verdict ≠ v.judge kind content := by
  obtain ⟨rfl, credit, message, missing, rfl⟩ := ArtifactKind.precheck?_eq_some decided
  intro same
  unfold judge at same
  cases given : v.heuristic .puml (v.thresholds .puml) content with
  | ok verdict =>
      rw [given, ordinary _ _ _ _ given] at same
      exact absurd (congrArg Verdict.detail same) nofun
  | error failure =>
      rw [given] at same
      have errors : [message] = ["validator fault: " ++ failure.message] :=
        congrArg Verdict.errors same
      exact failure_ne_missing (missingMarker?_message missing) failure.message
        (List.cons_eq_cons.mp errors).1.symm

-----------------------------------------------------------------------------------------
-- Hosts without tools
-----------------------------------------------------------------------------------------

/-- No tool is found. -/
def Bare (v : Validator R) : Prop :=
  ∀ tool, v.tools tool = none

omit [Scale R] in
theorem Bare.native?_eq (bare : v.Bare) (kind : ArtifactKind) : v.native? kind = none := by
  have unlocated (checker : Checker) : checker.locate v.tools = none := by
    cases checker <;> simp [Checker.locate, bare _]
  cases known : kind.checker? <;> simp [native?, known, unlocated]

omit [Scale R] in
theorem Bare.toolLabel_eq (bare : v.Bare) (kind : ArtifactKind)
    : v.toolLabel kind = kind.heuristicLabel := by
  rw [toolLabel, bare.native?_eq]

/-- Without tools the heuristic decides what the precheck leaves open. -/
theorem Bare.validate_eq (bare : v.Bare) (kind : ArtifactKind)
    (something : Text.allBlank content = false)
    : (v.validate kind content).1 = (kind.precheck? content).getD (v.judge kind content) := by
  cases decided : (kind.precheck? content : Option (Verdict R)) <;>
    simp [validate, something, decided, bare.native?_eq]

theorem validateByHeuristic_eq (v : Validator R) (kind : ArtifactKind)
    (something : Text.allBlank content = false)
    : (v.validateByHeuristic kind content).1 = v.judge kind content := by
  simp [validateByHeuristic, something]

/-- Without tools a validation and the heuristic alone come to the same verdict, but for a diagram
that lacks a marker: the validation rejects it for that, while the heuristic alone judges it like
any other.
-/
theorem validate_eq_byHeuristic_iff (v : Validator R) (bare : v.Bare) (ordinary : v.Ordinary)
    (kind : ArtifactKind) (content : List Char)
    : ((v.validate kind content).1 = (v.validateByHeuristic kind content).1
        ↔ Text.allBlank content = true
          ∨ kind ≠ .puml
          ∨ Text.has content "@startuml" = true ∧ Text.has content "@enduml" = true)
      ∧ ∀ credit message,
          Text.allBlank content = false
          → kind = .puml
          → missingMarker? content = some (credit, message)
          → (v.validate kind content).1
              = .reject (Scale.hundredths credit) [message] kind.heuristicLabel
            ∧ (v.validateByHeuristic kind content).1 = v.judge kind content := by
  constructor
  · cases something : Text.allBlank content with
    | true => simp [validate, validateByHeuristic, something, bare.toolLabel_eq]
    | false =>
        rw [bare.validate_eq kind something, v.validateByHeuristic_eq kind something,
          ← ArtifactKind.precheck?_eq_none (R := R)]
        cases decided : (kind.precheck? content : Option (Verdict R)) with
        | none => simp
        | some verdict => simpa using ordinary.judge_ne_precheck decided
  · rintro credit message something rfl missing
    refine ⟨?_, v.validateByHeuristic_eq _ something⟩
    simp [bare.validate_eq _ something, ArtifactKind.precheck?, missing]

/-- A diagram of five lines, without markers. -/
def unmarkedDiagram : List Char := "component A\nA -> B\n\n\n\n".toList

theorem validate_eq_byHeuristic_iff_unmarked
    : ∃ v : Validator Exact,
        v.Bare
        ∧ v.Ordinary
        ∧ (v.validate .puml unmarkedDiagram).1 ≠ (v.validateByHeuristic .puml unmarkedDiagram).1
        ∧ (v.validate .puml unmarkedDiagram).1
          = ⟨false, .fraction (1 / 10), ["Missing @startuml"], "puml-marker-fallback", none⟩ := by
  let v : Validator Exact := withoutTools fun _ => Scale.hundredths 30
  have bare : v.Bare := fun _ => rfl
  have ordinary : v.Ordinary := ordinary_withoutTools _
  have something : Text.allBlank unmarkedDiagram = false := by decide +kernel
  have unmarked : missingMarker? unmarkedDiagram = some (10, "Missing @startuml") := by
    decide +kernel
  obtain ⟨same, rejected⟩ := validate_eq_byHeuristic_iff v bare ordinary .puml unmarkedDiagram
  refine ⟨v, bare, ordinary, ?_, ?_⟩
  · rw [ne_eq, same]
    decide +kernel
  · rw [(rejected _ _ something rfl unmarked).1]
    decide +kernel

/-- What a validation without tools rejects, the heuristic alone may accept. -/
theorem unmarked_accepted_byHeuristic
    : ∃ thresholds : ArtifactKind → Exact,
        ((withoutTools thresholds).validate .puml unmarkedDiagram).1
            = ⟨false, .fraction (1 / 10), ["Missing @startuml"], "puml-marker-fallback", none⟩
          ∧ ((withoutTools thresholds).validateByHeuristic .puml unmarkedDiagram).1
            = ⟨true, .fraction (4 / 10), [], "puml-marker-fallback", some "5 lines"⟩ :=
  ⟨fun _ => Scale.hundredths 30, by decide +kernel, by decide +kernel⟩

-----------------------------------------------------------------------------------------
-- Tools that cannot be run
-----------------------------------------------------------------------------------------

/-- The verdict of the heuristic stands when the tool could not be run, and is noted. -/
theorem conclude_of_note {outcome : ToolOutcome} (noted : outcome.note? = some note)
    : (v.conclude kind checker content outcome).1 = (v.judge kind content).withNote note := by
  cases outcome <;> simp only [ToolOutcome.note?, Option.some.injEq, reduceCtorEq] at noted
  all_goals
    subst noted
    rfl

/-- The same heuristics with the same thresholds give the same verdicts. -/
theorem judge_congr (thresholds : plain.thresholds = v.thresholds)
    (heuristic : plain.heuristic = v.heuristic)
    : plain.judge kind content = v.judge kind content := by
  rw [judge, judge, thresholds, heuristic]

/-- A tool that is found but cannot be run, for want of a source, of a directory or of a process
whose output can be had, degrades to having no tool: the verdict is that of a host without tools
with a note at the end of its summary, or the very same one when the precheck decides.
-/
theorem validate_degrades (v plain : Validator R) (bare : plain.Bare)
    (thresholds : plain.thresholds = v.thresholds) (heuristic : plain.heuristic = v.heuristic)
    (kind : ArtifactKind) (content : List Char) (something : Text.allBlank content = false)
    (checker : Checker) (program : Program) (note : String)
    (located : v.native? kind = some (checker, program))
    (failed : (v.run checker program (checker.prepare content)).note? = some note)
    : ((kind.precheck? content : Option (Verdict R)) = none
        → (v.validate kind content).1.Notes (plain.validate kind content).1 note)
      ∧ ∀ verdict, kind.precheck? content = some verdict
        → (v.validate kind content).1 = verdict ∧ (plain.validate kind content).1 = verdict := by
  rw [bare.validate_eq kind something, judge_congr thresholds heuristic]
  constructor
  · intro undecided
    have noted : (v.validate kind content).1 = (v.judge kind content).withNote note := by
      simp only [validate, something, undecided, located, Bool.false_eq_true, if_false]
      exact conclude_of_note failed
    rw [noted, undecided]
    exact Verdict.withNote_notes _ note
  · intro verdict decided
    simp [validate, something, decided]

/-- A host whose policy compiler is not where it is thought to be. -/
def strayCompiler : Rehearsal where
  installed tool := if tool = .checkpolicy then some .missing else none
  limit := 1000
  hasScratch := true

/-- What is noted on such a host. -/
def strayNote : String :=
  "failed to run /nonexistent/checkpolicy: No such file or directory (os error 2)"

/-- A policy of one rule. -/
def plainPolicy : List Char := "allow vhal".toList

theorem validate_degrades_strayCompiler
    : ∃ v plain : Validator Exact,
        plain.Bare
        ∧ v.native? .selinux = some (.checkpolicy, ⟨"/nonexistent/checkpolicy", none⟩)
        ∧ (v.validate .selinux plainPolicy).1.Notes (plain.validate .selinux plainPolicy).1 strayNote
        ∧ (v.validate .selinux plainPolicy).1
          = ⟨true, .fraction (55 / 100), [], "selinux-keyword-fallback", some strayNote⟩ := by
  let v : Validator Exact := strayCompiler.validator fun _ => Scale.whole 0
  let plain : Validator Exact := withoutTools fun _ => Scale.whole 0
  have bare : plain.Bare := fun _ => rfl
  have something : Text.allBlank plainPolicy = false := by decide +kernel
  have located : v.native? .selinux
      = some (.checkpolicy, ⟨"/nonexistent/checkpolicy", none⟩) := by decide +kernel
  have failed : (v.run .checkpolicy ⟨"/nonexistent/checkpolicy", none⟩
      (Checker.checkpolicy.prepare plainPolicy)).note? = some strayNote := by
    decide +kernel
  have degraded := validate_degrades v plain bare rfl rfl .selinux plainPolicy something _ _ _
    located failed
  exact ⟨v, plain, bare, located, degraded.1 rfl, by decide +kernel⟩

end Validator

end Vetting
