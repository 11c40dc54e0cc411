import Mathlib.Algebra.Order.BigOperators.Group.List
import Vetting.Proofs.Score.Fractions
import Vetting.Score.Blend
import Vetting.Score.Checklist
import Vetting.Score.Coverage

/-! Blended scores. The structural score and the coverage lie between zero and one by themselves,
so that clamping changes neither; the weights of a kind add up to one, so that the blend of any
parts lies there too, and rises with each of them.
-/

namespace Vetting

open Exact

-----------------------------------------------------------------------------------------
-- The structural score and the coverage
-----------------------------------------------------------------------------------------

theorem total_checks (checks : List (Bool × ℕ))
    : Scale.total (checks.map fun check => (Scale.hundredths check.2 : Exact))
      = fraction ((checks.map Prod.snd).sum / 100) := by
  rw [← List.filterMap_eq_map]
  exact total_hundredths checks fun check => .inr (congrArg some (hundredths_eq check.2))

/-- No more is earned on a checklist than there is to earn. -/
theorem weighted_inUnit (checks : List (Bool × ℕ))
    : InUnit (weighted (checks.map fun check => (check.1, Scale.hundredths check.2))) := by
  have earned_le : (((checks.filter Prod.fst).map Prod.snd).sum : ℚ) ≤ (checks.map Prod.snd).sum := by
    exact_mod_cast (List.filter_sublist.map Prod.snd).sum_le_sum fun _ _ => Nat.zero_le _
  simp only [weighted, List.filter_map, List.map_map, Function.comp_def, total_checks]
  split
  · exact ⟨0, by norm_num, by simp⟩
  · apply InUnit.round
    refine ⟨_, ⟨by positivity, ?_⟩, fraction_div _ _⟩
    exact div_le_one_of_le₀ (by gcongr) (by positivity)

theorem checklistScore_inUnit (kind : ArtifactKind) (text : List Char)
    : InUnit (checklistScore kind text) := by
  have listed := weighted_inUnit (kind.checklist.map fun item => (item.1.holds text, item.2))
  rwa [List.map_map] at listed

/-- Half of one part and half of another lie between zero and one when both do. -/
theorem halves_mem {p q : ℚ} (left : p ∈ Set.Icc 0 1) (right : q ∈ Set.Icc 0 1)
    : 50 / 100 * p + 50 / 100 * q ∈ Set.Icc (0 : ℚ) 1 := by
  constructor <;> linarith [left.1, left.2, right.1, right.2]

theorem part_mem {part whole : ℕ} (le : part ≤ whole) : (part / whole : ℚ) ∈ Set.Icc 0 1 :=
  ⟨by positivity, div_le_one_of_le₀ (by exact_mod_cast le) (by positivity)⟩

theorem structuralScore_inUnit (kind : ArtifactKind) (text : List Char)
    : InUnit (structuralScore kind text) := by
  simp only [structuralScore]
  split
  · exact ⟨0, by norm_num, by simp⟩
  · unfold rawStructure
    split
    · obtain ⟨q, inside, listed⟩ := checklistScore_inUnit .designDoc (Text.trim text)
      have found : (sectionsPresent (Text.trim text)).length ≤ designSections.length :=
        List.length_filter_le _ _
      apply InUnit.round
      rw [listed]
      simp only [hundredths_eq, whole_eq, fraction_div, fraction_mul, fraction_add]
      exact ⟨_, halves_mem inside (part_mem found), by norm_num⟩
    · exact checklistScore_inUnit _ _

theorem coverageScore_inUnit (text : List Char) (expected : List String)
    : InUnit (coverageScore text expected) := by
  unfold coverageScore
  split
  · exact ⟨1, by norm_num, by simp⟩
  · apply InUnit.round
    rw [whole_eq, whole_eq, fraction_div]
    exact ⟨_, part_mem (List.length_filter_le _ _), rfl⟩

-----------------------------------------------------------------------------------------
-- The blend
-----------------------------------------------------------------------------------------

/-- The weights of a kind are fractions that add up to one. -/
theorem ArtifactKind.weights_eq (kind : ArtifactKind)
    : ∃ w₁ w₂ w₃ : ℚ,
        (kind.weights : BlendWeights Exact) = ⟨fraction w₁, fraction w₂, fraction w₃⟩
        ∧ 0 ≤ w₁
        ∧ 0 ≤ w₂
        ∧ 0 ≤ w₃
        ∧ w₁ + w₂ + w₃ = 1 := by
  have listed : ∃ n₁ n₂ n₃ : ℕ,
      (kind.weights : BlendWeights Exact) = .ofHundredths n₁ n₂ n₃ ∧ n₁ + n₂ + n₃ = 100 := by
    cases kind <;> exact ⟨_, _, _, rfl, rfl⟩
  obtain ⟨n₁, n₂, n₃, weights, whole⟩ := listed
  have whole : (n₁ : ℚ) + n₂ + n₃ = 100 := by exact_mod_cast whole
  refine ⟨n₁ / 100, n₂ / 100, n₃ / 100, ?_, by positivity, by positivity, by positivity, ?_⟩
  · rw [weights, BlendWeights.ofHundredths, hundredths_eq, hundredths_eq, hundredths_eq]
  · linarith

/-- The parts and the blend of a score are fractions between zero and one, and the blend is the sum
of the parts with the weights of the kind, rounded to four places.
-/
def ScoreBreakdown.IsBlend (breakdown : ScoreBreakdown Exact) (kind : ArtifactKind) : Prop :=
  ∃ s ∈ Set.Icc (0 : ℚ) 1, ∃ t ∈ Set.Icc (0 : ℚ) 1, ∃ c ∈ Set.Icc (0 : ℚ) 1,
    ∃ b ∈ Set.Icc (0 : ℚ) 1,
      breakdown = ⟨fraction s, fraction t, fraction c, fraction b⟩
      ∧ ∃ w₁ w₂ w₃ : ℚ,
          (kind.weights : BlendWeights Exact) = ⟨fraction w₁, fraction w₂, fraction w₃⟩
          ∧ Rounds 4 (w₁ * s + w₂ * t + w₃ * c) b

theorem blend_eq {kind : ArtifactKind} {w₁ w₂ w₃ : ℚ}
    (weights : (kind.weights : BlendWeights Exact) = ⟨fraction w₁, fraction w₂, fraction w₃⟩)
    (x y z : Exact)
    : blend kind x y z
      = ⟨fraction x.clamped, fraction y.clamped, fraction z.clamped,
        fraction (roundFraction 4 (w₁ * x.clamped + w₂ * y.clamped + w₃ * z.clamped))⟩ := by
  simp only [blend, clampUnit_eq, BlendWeights.combine, weights, fraction_mul, fraction_add,
    round_fraction]

theorem blend_isBlend (kind : ArtifactKind) (x y z : Exact) : (blend kind x y z).IsBlend kind := by
  obtain ⟨w₁, w₂, w₃, weights, nonneg₁, nonneg₂, nonneg₃, whole⟩ := kind.weights_eq
  obtain ⟨lowX, highX⟩ := x.clamped_mem
  obtain ⟨lowY, highY⟩ := y.clamped_mem
  obtain ⟨lowZ, highZ⟩ := z.clamped_mem
  have inside : w₁ * x.clamped + w₂ * y.clamped + w₃ * z.clamped ∈ Set.Icc 0 1 := by
    constructor
    · positivity
    · calc
        w₁ * x.clamped + w₂ * y.clamped + w₃ * z.clamped ≤ w₁ * 1 + w₂ * 1 + w₃ * 1 := by gcongr
        _ = 1 := by linarith
  exact ⟨_, x.clamped_mem, _, y.clamped_mem, _, z.clamped_mem, _, roundFraction_mem 4 inside,
    blend_eq weights x y z, w₁, w₂, w₃, weights, rounds_roundFraction 4 _⟩

/-- A blend does not fall when its parts rise or stay as they are, whatever they are. -/
theorem blend_mono (kind : ArtifactKind) {x y z x' y' z' : Exact}
    (structural : x = x' ∨ Scale.atMost x x' = true)
    (syntactic : y = y' ∨ Scale.atMost y y' = true)
    (coverage : z = z' ∨ Scale.atMost z z' = true)
    : Scale.atMost (blend kind x y z).blended (blend kind x' y' z').blended = true := by
  have clamped_le {p q : Exact} (rises : p = q ∨ Scale.atMost p q = true)
      : p.clamped ≤ q.clamped := by
    obtain rfl | less := rises
    · exact le_rfl
    · exact clamped_mono less
  have leX := clamped_le structural
  have leY := clamped_le syntactic
  have leZ := clamped_le coverage
  obtain ⟨w₁, w₂, w₃, weights, nonneg₁, nonneg₂, nonneg₃, -⟩ := kind.weights_eq
  rw [blend_eq weights, blend_eq weights, atMost_fraction]
  exact roundFraction_mono 4 (by gcongr)

end Vetting
