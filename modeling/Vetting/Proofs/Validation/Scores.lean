import Vetting.Proofs.Score.Blending
import Vetting.Proofs.Validation.Paths
import Vetting.Validation.Evaluation

/-! The scores of an evaluation. Every verdict is clamped and rounded where it is made, whichever
way a validation takes, so its score lies between zero and one like the structural score and the
coverage, and the blend takes all three as they are.
-/

namespace Vetting

open Exact

-----------------------------------------------------------------------------------------
-- The score of a verdict
-----------------------------------------------------------------------------------------

/-- A verdict is clamped and rounded where it is made. -/
theorem judged_inUnit (score : Exact) : InUnit (Scale.round 3 (Scale.clampUnit score)) :=
  (inUnit_clampUnit score).round 3

theorem ArtifactKind.heuristic_inUnit (kind : ArtifactKind) (acceptAt : Exact)
    (content : List Char)
    : InUnit (kind.heuristic acceptAt content).score := by
  unfold heuristic
  cases kind.assess content <;> exact judged_inUnit _

theorem ArtifactKind.precheck_inUnit {kind : ArtifactKind} {content : List Char}
    {verdict : Verdict Exact} (decided : kind.precheck? content = some verdict)
    : InUnit verdict.score := by
  obtain ⟨-, credit, message, -, rfl⟩ := precheck?_eq_some decided
  exact judged_inUnit _

theorem Checker.interpret_inUnit (output : ToolOutput) (checker : Checker)
    : InUnit (checker.interpret output : Verdict Exact).score := by
  cases checker <;> simp only [interpret, rejected]
  all_goals split <;> exact judged_inUnit _

namespace Validator

variable {v : Validator Exact} {kind : ArtifactKind} {content : List Char} {course : Course}
  {verdict : Verdict Exact}

theorem Ordinary.judge_inUnit (ordinary : v.Ordinary) (kind : ArtifactKind) (content : List Char)
    : InUnit (v.judge kind content).score := by
  unfold judge
  cases given : v.heuristic kind (v.thresholds kind) content with
  | error failure => exact judged_inUnit _
  | ok verdict =>
      rw [ordinary _ _ _ _ given]
      exact kind.heuristic_inUnit _ _

/-- Whichever way a validation takes, the score at its end lies between zero and one. -/
theorem Takes.score_inUnit (takes : v.Takes kind content course verdict) (ordinary : v.Ordinary)
    : InUnit verdict.score := by
  cases takes with
  | blank => exact judged_inUnit _
  | prechecked _ decided => exact ArtifactKind.precheck_inUnit decided
  | completed => exact Checker.interpret_inUnit _ _
  | timedOut => exact judged_inUnit _
  | noTool => exact ordinary.judge_inUnit _ _
  | noSource | noDirectory | notStarted =>
      rw [Verdict.withNote_score]
      exact ordinary.judge_inUnit _ _

theorem validate_inUnit (v : Validator Exact) (ordinary : v.Ordinary) (kind : ArtifactKind)
    (content : List Char)
    : InUnit (v.validate kind content).1.score :=
  (takes_iff.mpr rfl : v.Takes kind content _ _).score_inUnit ordinary

/-- An evaluation takes the structural score, the score of the verdict and the coverage as they are,
and blends them with the weights of the kind; all of them and the blend lie between zero and one.
The blend of any three numbers lies there too, and does not fall when they rise.
-/
theorem evaluate_blends (v : Validator Exact) (ordinary : v.Ordinary) (input : ArtifactInput)
    : (v.evaluate input).1.breakdown.IsBlend input.kind
      ∧ (v.evaluate input).1.breakdown.structural = structuralScore input.kind input.content
      ∧ (v.evaluate input).1.breakdown.syntactic = (v.evaluate input).1.validation.score
      ∧ (v.evaluate input).1.breakdown.coverage = coverageScore input.content input.expected
      ∧ ∀ kind x y z,
          (blend kind x y z).IsBlend kind
          ∧ ∀ x' y' z',
              x = x' ∨ Scale.atMost x x' = true
              → y = y' ∨ Scale.atMost y y' = true
              → z = z' ∨ Scale.atMost z z' = true
              → Scale.atMost (blend kind x y z).blended (blend kind x' y' z').blended = true := by
  refine ⟨blend_isBlend _ _ _ _, ?_, ?_, ?_, ?_⟩
  · exact (structuralScore_inUnit _ _).clampUnit_eq
  · exact (v.validate_inUnit ordinary _ _).clampUnit_eq
  · exact (coverageScore_inUnit _ _).clampUnit_eq
  · exact fun kind x y z => ⟨blend_isBlend kind x y z, fun _ _ _ => blend_mono kind⟩

/-- A policy of one rule, of which one of two expected names is found. -/
def rulePolicy : ArtifactInput := ⟨.selinux, "allow vhal".toList, ["vhal", "gear"]⟩

theorem evaluate_blends_rulePolicy
    : ∃ v : Validator Exact,
        v.Ordinary
        ∧ (v.evaluate rulePolicy).1.breakdown
          = ⟨fraction (45 / 100), fraction (55 / 100), fraction (1 / 2), fraction (52 / 100)⟩
        ∧ (v.evaluate rulePolicy).1.breakdown.IsBlend .selinux
        ∧ (v.evaluate rulePolicy).1.validation.score = fraction (55 / 100) := by
  let v : Validator Exact := withoutTools fun _ => Scale.whole 0
  have ordinary : v.Ordinary := ordinary_withoutTools _
  have scored : (v.evaluate rulePolicy).1.breakdown
      = ⟨fraction (45 / 100), fraction (55 / 100), fraction (1 / 2), fraction (52 / 100)⟩ := by
    decide +kernel
  obtain ⟨blended, -, syntactic, -, -⟩ := evaluate_blends v ordinary rulePolicy
  exact ⟨v, ordinary, scored, blended, by rw [← syntactic, scored]⟩

end Validator

end Vetting
