import Vetting.Heuristic.Kinds
import Vetting.Proofs.Score.Fractions

/-! Heuristic verdicts at different thresholds. What a heuristic finds does not depend on the
threshold; a higher threshold accepts less and never scores higher, and what is accepted has at
least the credit that is asked for. Credit is counted in hundredths, so that the three places of a
score lose nothing of it.
-/

namespace Vetting

open Exact

-----------------------------------------------------------------------------------------
-- Credit in hundredths
-----------------------------------------------------------------------------------------

namespace Finding

/-- The hundredths of credit that a finding is worth. -/
def worth : Finding → ℕ
  | credit hundredths times => hundredths * times
  | fault _ => 0

/-- The hundredths of credit that findings are worth together. -/
def totalWorth (findings : List Finding) : ℕ :=
  (findings.map worth).sum

theorem score_eq (findings : List Finding)
    : (score findings : Exact) = fraction (totalWorth findings / 100) := by
  refine total_hundredths findings fun finding => ?_
  cases finding with
  | credit hundredths times =>
      right
      simp [worth, div_mul_eq_mul_div]
  | fault message => simp [worth]

end Finding

-----------------------------------------------------------------------------------------
-- The verdict on an assessed artifact
-----------------------------------------------------------------------------------------

namespace Assessment

/-- The score that is reported for hundredths of credit, penalised or not. -/
def reported (penalised : Bool) (hundredths : ℕ) : ℚ :=
  let credit : ℚ := hundredths / 100
  roundFraction 3
    (fraction (if penalised then credit * (penaltyHundredths / 100) else credit)).clamped

/-- Without a penalty the score is the credit, up to one: three places hold all of it. -/
theorem reported_whole (hundredths : ℕ)
    : reported false hundredths = min ((hundredths : ℚ) / 100) 1 := by
  have nonneg : 0 ≤ min ((hundredths : ℚ) / 100) 1 := le_min (by positivity) zero_le_one
  have units : min ((hundredths : ℚ) / 100) 1 = ((10 * min hundredths 100 : ℕ) : ℤ) / 10 ^ 3 := by
    obtain few | many := le_total hundredths 100
    · have small : (hundredths : ℚ) / 100 ≤ 1 := by
        rw [div_le_one (by norm_num)]
        exact_mod_cast few
      rw [min_eq_left few, min_eq_left small]
      push_cast
      ring
    · have large : 1 ≤ (hundredths : ℚ) / 100 := by
        rw [one_le_div (by norm_num)]
        exact_mod_cast many
      rw [min_eq_right many, min_eq_right large]
      norm_num
  rw [reported, if_neg (by simp), clamped, max_eq_right nonneg, units]
  exact roundFraction_units 3 _

/-- A penalised score is what is left of the whole one, unless there is more credit than counts. -/
theorem rounds_reported {hundredths : ℕ} (counts : (hundredths : ℚ) / 100 ≤ 1)
    : Rounds 3 (reported false hundredths * (penaltyHundredths / 100))
        (reported true hundredths) := by
  have inside : (hundredths : ℚ) / 100 * (penaltyHundredths / 100) ∈ Set.Icc 0 1 :=
    ⟨by positivity, mul_le_one₀ counts (by positivity) (by norm_num [penaltyHundredths])⟩
  rw [reported_whole, min_eq_left counts, reported, if_pos rfl, clamped_of_mem inside]
  exact rounds_roundFraction 3 _

/-- A penalty never adds to a score. -/
theorem reported_le {penalised penalised' : Bool} (more : penalised = true → penalised' = true)
    (hundredths : ℕ)
    : reported penalised' hundredths ≤ reported penalised hundredths := by
  have less : (hundredths : ℚ) / 100 * (penaltyHundredths / 100) ≤ hundredths / 100 :=
    mul_le_of_le_one_right (by positivity) (by norm_num [penaltyHundredths])
  apply roundFraction_mono
  apply clamped_mono
  rw [atMost_fraction]
  cases penalised with
  | true => rw [more rfl]
  | false =>
      cases penalised' with
      | true => exact less
      | false => exact le_rfl

variable {R : Type} [Scale R]

/-- Whatever the threshold, a heuristic reports the same findings. -/
theorem verdict_findings (standard : Standard) (tool : String) (a b : R) (assessment : Assessment)
    : (assessment.verdict standard tool b).errors = (assessment.verdict standard tool a).errors
      ∧ (assessment.verdict standard tool b).tool = (assessment.verdict standard tool a).tool
      ∧ (assessment.verdict standard tool b).detail
        = (assessment.verdict standard tool a).detail := by
  cases assessment <;> exact ⟨rfl, rfl, rfl⟩

variable {standard : Standard} {tool : String} {findings : List Finding} {detail : Option String}
  {assessment : Assessment} {a b : ℚ}

theorem graded_ok_iff
    : ((graded findings detail).verdict standard tool (fraction a)).ok = true
      ↔ a ≤ Finding.totalWorth findings / 100
        ∧ (standard.faultsVeto = true → Finding.errors findings = []) := by
  simp only [verdict, Verdict.judge, Finding.score_eq, Bool.and_eq_true, atMost_fraction,
    Bool.or_eq_true, Bool.not_eq_true', List.isEmpty_iff, ← Bool.not_eq_true, imp_iff_not_or]

theorem graded_score {ok : Bool}
    (decided : ((graded findings detail).verdict standard tool (fraction a)).ok = ok)
    : ((graded findings detail).verdict standard tool (fraction a)).score
      = fraction (reported (!ok && standard.failurePenalised) (Finding.totalWorth findings)) := by
  subst decided
  simp only [verdict, Verdict.judge, Finding.score_eq, hundredths_eq, fraction_mul]
  generalize (Scale.atMost (fraction a) (fraction (Finding.totalWorth findings / 100))
    && (!standard.faultsVeto || (Finding.errors findings).isEmpty)) = ok
  cases ok <;> cases standard.failurePenalised <;>
    simp [reported, clampUnit_eq]

/-- What is accepted scores at least the threshold. -/
theorem graded_reported_ge (low : a ≤ 1)
    (accepted : ((graded findings detail).verdict standard tool (fraction a)).ok = true)
    : a ≤ reported false (Finding.totalWorth findings) := by
  rw [reported_whole]
  exact le_min (graded_ok_iff.mp accepted).1 low

/-- What is accepted at a threshold is accepted at a lower one. -/
theorem verdict_ok_mono (le : a ≤ b)
    (accepted : (assessment.verdict standard tool (fraction b)).ok = true)
    : (assessment.verdict standard tool (fraction a)).ok = true := by
  cases assessment with
  | refused hundredths error => cases accepted
  | graded findings detail =>
      obtain ⟨enough, unvetoed⟩ := graded_ok_iff.mp accepted
      exact graded_ok_iff.mpr ⟨le.trans enough, unvetoed⟩

/-- What is accepted has no faults where faults veto. -/
theorem verdict_errors_of_ok (accepted : (assessment.verdict standard tool (fraction a)).ok = true)
    (vetoing : standard.faultsVeto = true)
    : (assessment.verdict standard tool (fraction a)).errors = [] := by
  cases assessment with
  | refused hundredths error => cases accepted
  | graded findings detail => exact (graded_ok_iff.mp accepted).2 vetoing

/-- What is accepted at one threshold alone has too little credit for the other. -/
theorem graded_credit_lt
    (accepted : ((graded findings detail).verdict standard tool (fraction a)).ok = true)
    (refused : ((graded findings detail).verdict standard tool (fraction b)).ok = false)
    : (Finding.totalWorth findings : ℚ) / 100 < b := by
  by_contra enough
  have accepted' : ((graded findings detail).verdict standard tool (fraction b)).ok = true :=
    graded_ok_iff.mpr ⟨not_lt.mp enough, (graded_ok_iff.mp accepted).2⟩
  rw [refused] at accepted'
  cases accepted'

/-- The score at a threshold is at most the score at a lower one, and less only by a penalty; what is
accepted scores at least the threshold.
-/
theorem verdict_scores (standard : Standard) (tool : String) (assessment : Assessment) (le : a ≤ b)
    (high : b ≤ 1)
    : ∃ s t,
        (assessment.verdict standard tool (fraction a)).score = fraction s
        ∧ (assessment.verdict standard tool (fraction b)).score = fraction t
        ∧ ((assessment.verdict standard tool (fraction a)).ok = true → a ≤ s)
        ∧ t ≤ s
        ∧ (t < s
          → standard.failurePenalised = true
            ∧ (assessment.verdict standard tool (fraction a)).ok = true
            ∧ (assessment.verdict standard tool (fraction b)).ok = false
            ∧ Rounds 3 (s * (penaltyHundredths / 100)) t) := by
  cases assessment with
  | refused hundredths error =>
      have fixed : ∀ c : ℚ,
          ((refused hundredths error).verdict standard tool (fraction c)).score
            = fraction (reported false hundredths) := by
        intro c
        simp [verdict, Verdict.reject, Verdict.judge, reported, clampUnit_eq]
      exact ⟨_, _, fixed a, fixed b, nofun, le_rfl, fun less => absurd less (lt_irrefl _)⟩
  | graded findings detail =>
      cases lenient : ((graded findings detail).verdict standard tool (fraction a)).ok with
      | false =>
          -- What is refused at the lower threshold is refused at the higher one, alike.
          have strict : ((graded findings detail).verdict standard tool (fraction b)).ok = false :=
            Bool.eq_false_iff.mpr fun accepted =>
              Bool.eq_false_iff.mp lenient (verdict_ok_mono le accepted)
          exact ⟨_, _, graded_score lenient, graded_score strict, nofun, le_rfl,
            fun less => absurd less (lt_irrefl _)⟩
      | true =>
          have enough := graded_reported_ge (le.trans high) lenient
          cases strict : ((graded findings detail).verdict standard tool (fraction b)).ok with
          | true =>
              exact ⟨_, _, graded_score lenient, graded_score strict, fun _ => enough, le_rfl,
                fun less => absurd less (lt_irrefl _)⟩
          | false =>
              refine ⟨_, _, graded_score lenient, graded_score strict, fun _ => enough,
                reported_le (by simp) _, ?_⟩
              cases penalises : standard.failurePenalised with
              | false => exact fun less => absurd less (lt_irrefl _)
              | true =>
                  have counts := (graded_credit_lt lenient strict).le.trans high
                  exact fun _ => ⟨rfl, rfl, rfl, rounds_reported counts⟩

end Assessment

-----------------------------------------------------------------------------------------
-- The heuristic of a kind
-----------------------------------------------------------------------------------------

namespace ArtifactKind

theorem faultsVeto_of_ne {kind : ArtifactKind} (notVintf : kind ≠ .vintf)
    (notLayout : kind ≠ .androidLayout)
    : kind.standard.faultsVeto = true := by
  cases kind with
  | vintf => exact absurd rfl notVintf
  | androidLayout => exact absurd rfl notLayout
  | _ => rfl

theorem penalised_kind {kind : ArtifactKind} (penalised : kind.standard.failurePenalised = true)
    : kind = .aidl ∨ kind = .build := by
  cases kind <;> simp [standard] at penalised ⊢

/-- How the verdict on a text at a threshold relates to the one at a threshold that is no lower. -/
structure Relaxes (kind : ArtifactKind) (a : ℚ) (lenient strict : Verdict Exact) : Prop where
  errors : strict.errors = lenient.errors
  tool : strict.tool = lenient.tool
  detail : strict.detail = lenient.detail
  accepts : strict.ok = true → lenient.ok = true
  faultless
    : lenient.ok = true → kind ≠ .vintf → kind ≠ .androidLayout → lenient.errors = []
  scores
    : ∃ s t,
        lenient.score = fraction s
        ∧ strict.score = fraction t
        ∧ (lenient.ok = true → a ≤ s)
        ∧ t ≤ s
        ∧ (t < s
          → (kind = .aidl ∨ kind = .build)
            ∧ lenient.ok = true
            ∧ strict.ok = false
            ∧ Rounds 3 (s * (penaltyHundredths / 100)) t)

/-- At a higher threshold a heuristic finds the same, accepts less and never scores higher; its
score drops only where what is checked against a grammar is accepted at the lower threshold alone.
What it accepts scores at least the threshold, and has no faults where faults veto.
-/
theorem heuristic_relaxes (kind : ArtifactKind) (content : List Char) {a b : ℚ} (le : a ≤ b)
    (high : b ≤ 1)
    : kind.Relaxes a (kind.heuristic (fraction a) content)
        (kind.heuristic (fraction b) content) := by
  obtain ⟨errors, tool, detail⟩ :=
    (kind.assess content).verdict_findings kind.standard kind.heuristicLabel (fraction a)
      (fraction b)
  obtain ⟨s, t, lenient, strict, enough, more, drop⟩ :=
    Assessment.verdict_scores kind.standard kind.heuristicLabel (kind.assess content) le high
  refine ⟨errors, tool, detail, Assessment.verdict_ok_mono le, ?_, s, t, lenient, strict, enough,
    more, ?_⟩
  · intro accepted notVintf notLayout
    exact Assessment.verdict_errors_of_ok accepted (faultsVeto_of_ne notVintf notLayout)
  · intro less
    obtain ⟨penalised, ended⟩ := drop less
    exact ⟨penalised_kind penalised, ended⟩

/-- A small interface, with nine tenths of the credit. -/
def plainInterface : List Char := "package a;interface I{int f();}".toList

theorem heuristic_relaxes_penalised
    : (aidl.heuristic (fraction (9 / 10)) plainInterface).ok = true
      ∧ (aidl.heuristic (fraction 1) plainInterface).score = fraction (585 / 1000)
      ∧ aidl.Relaxes (9 / 10) (aidl.heuristic (fraction (9 / 10)) plainInterface)
        (aidl.heuristic (fraction 1) plainInterface) :=
  ⟨by decide +kernel, by decide +kernel,
    heuristic_relaxes .aidl plainInterface (by norm_num) le_rfl⟩

end ArtifactKind

end Vetting
