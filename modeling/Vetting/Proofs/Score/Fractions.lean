import Mathlib.Data.Rat.Floor
import Mathlib.Order.Interval.Set.Basic
import Mathlib.Tactic.FieldSimp
import Mathlib.Tactic.Linarith
import Mathlib.Tactic.NormNum
import Vetting.Score.Exact

/-! Scores in fractions. On fractions the exact scale computes as fractions do, clamping yields a
fraction whatever it is given, and rounding yields the nearest number with so many places, the one
further from zero where two are equally near. Both are monotone, and keep what lies between zero
and one there.
-/

namespace Vetting.Exact

-----------------------------------------------------------------------------------------
-- Fractions
-----------------------------------------------------------------------------------------

@[simp] theorem fraction_add (a b : ℚ) : fraction a + fraction b = fraction (a + b) := rfl

@[simp] theorem fraction_mul (a b : ℚ) : fraction a * fraction b = fraction (a * b) := rfl

@[simp] theorem fraction_div (a b : ℚ) : fraction a / fraction b = fraction (a / b) := rfl

@[simp] theorem whole_eq (n : ℕ) : (Scale.whole n : Exact) = fraction n := by
  change fraction ((n : ℚ) / ((1 : ℕ) : ℚ)) = fraction n
  simp

@[simp] theorem hundredths_eq (n : ℕ) : (Scale.hundredths n : Exact) = fraction (n / 100) := by
  change fraction ((n : ℚ) / ((10 ^ 2 : ℕ) : ℚ)) = fraction (n / 100)
  norm_num

@[simp] theorem atMost_fraction (a b : ℚ)
    : Scale.atMost (fraction a) (fraction b) = true ↔ a ≤ b :=
  decide_eq_true_iff

@[simp] theorem round_fraction (places : ℕ) (q : ℚ)
    : Scale.round places (fraction q) = fraction (roundFraction places q) := rfl

/-- Items add up to the hundredths that they are worth together, where those that are left out are
worth nothing. By induction on the items, with what has been added up so far as it is.
-/
theorem total_hundredths {α : Type} (items : List α) {value : α → Option Exact} {worth : α → ℕ}
    (valued
      : ∀ item,
          value item = none ∧ worth item = 0 ∨ value item = some (fraction (worth item / 100)))
    : Scale.total (items.filterMap value) = fraction ((items.map worth).sum / 100) := by
  have added : ∀ sum : ℚ,
      (items.filterMap value).foldl (· + ·) (fraction sum)
        = fraction (sum + (items.map worth).sum / 100) := by
    induction items with
    | nil => simp
    | cons item items ih =>
        intro sum
        rw [List.map_cons, List.sum_cons, Nat.cast_add, add_div]
        obtain ⟨nothing, free⟩ | something := valued item
        · rw [List.filterMap_cons_none nothing, ih, free, Nat.cast_zero, zero_div, zero_add]
        · rw [List.filterMap_cons_some something, List.foldl_cons, fraction_add, ih, add_assoc]
  rw [Scale.total, whole_eq, added, Nat.cast_zero, zero_add]

-----------------------------------------------------------------------------------------
-- Rounding
-----------------------------------------------------------------------------------------

/-- A whole number is nearest to a fraction, and further from zero where two are equally near. -/
structure Nearest (x : ℚ) (k : ℤ) : Prop where
  near : |k - x| ≤ 1 / 2
  away : |k - x| = 1 / 2 → |x| < |(k : ℚ)|

/-- What a fraction comes to when it is rounded to a number of places, halves away from zero. -/
def Rounds (places : ℕ) (q r : ℚ) : Prop :=
  ∃ units : ℤ, r = units / 10 ^ places ∧ Nearest (q * 10 ^ places) units

theorem Nearest.neg {x : ℚ} {k : ℤ} (nearest : Nearest x k) : Nearest (-x) (-k) := by
  have same : |((-k : ℤ) : ℚ) - -x| = |k - x| := by
    rw [← abs_neg]
    congr 1
    push_cast
    ring
  constructor
  · rw [same]
    exact nearest.near
  · rw [same, abs_neg, Int.cast_neg, abs_neg]
    exact nearest.away

/-- Above zero, the floor of half a unit more is nearest. -/
theorem nearest_floor {x : ℚ} (nonneg : 0 ≤ x) : Nearest x ⌊x + 1 / 2⌋ := by
  have below := Int.floor_le (x + 1 / 2)
  have above := Int.lt_floor_add_one (x + 1 / 2)
  constructor
  · rw [abs_le]
    constructor <;> linarith
  · intro tie
    have beyond : x < ⌊x + 1 / 2⌋ := by
      obtain up | down := eq_or_eq_neg_of_abs_eq tie <;> linarith
    rwa [abs_of_nonneg nonneg, abs_of_nonneg (nonneg.trans beyond.le)]

/-- Rounding is monotone: a tie between two numbers a unit apart is in the middle between them, and
the one further from zero is the only one it goes to.
-/
theorem Nearest.le {x y : ℚ} {k l : ℤ} (left : Nearest x k) (right : Nearest y l) (le : x ≤ y)
    : k ≤ l := by
  by_contra less
  have apart : (l : ℚ) + 1 ≤ k := by exact_mod_cast not_le.mp less
  have upper := (abs_le.mp left.near).2
  have lower := (abs_le.mp right.near).1
  obtain rfl : x = y := by linarith
  have up : (k : ℚ) = x + 1 / 2 := by linarith
  have down : (l : ℚ) = x - 1 / 2 := by linarith
  have fromAbove : |x| < |x + 1 / 2| := by
    rw [← up]
    exact left.away (by rw [up]; norm_num)
  have fromBelow : |x| < |x - 1 / 2| := by
    rw [← down]
    exact right.away (by rw [down]; norm_num)
  rw [← sq_lt_sq] at fromAbove fromBelow
  have positive : 0 < k := by
    have : (0 : ℚ) < k := by nlinarith
    exact_mod_cast this
  have small : k < 1 := by
    have : (k : ℚ) < 1 := by nlinarith
    exact_mod_cast this
  omega

theorem rounds_roundFraction (places : ℕ) (q : ℚ) : Rounds places q (roundFraction places q) := by
  have factor : ((Nat.pow 10 places : ℕ) : ℚ) = 10 ^ places := by
    rw [Nat.pow_eq]
    push_cast
    rfl
  by_cases nonneg : 0 ≤ q
  · refine ⟨⌊q * 10 ^ places + 1 / 2⌋, ?_, nearest_floor (by positivity)⟩
    simp only [roundFraction, factor, nonneg, if_true]
    rfl
  · have positive : 0 ≤ -q := by linarith
    refine ⟨-⌊-q * 10 ^ places + 1 / 2⌋, ?_, ?_⟩
    · simp only [roundFraction, factor, nonneg, if_false, Int.cast_neg, neg_div]
      rfl
    · simpa using (nearest_floor (x := -q * 10 ^ places) (by positivity)).neg

theorem Rounds.le {places : ℕ} {q r q' r' : ℚ} (left : Rounds places q r)
    (right : Rounds places q' r') (le : q ≤ q')
    : r ≤ r' := by
  obtain ⟨units, rfl, nearest⟩ := left
  obtain ⟨units', rfl, nearest'⟩ := right
  have le := nearest.le nearest' (mul_le_mul_of_nonneg_right le (by positivity))
  gcongr

/-- The rule of rounding leaves nothing open. -/
theorem rounds_iff {places : ℕ} {q r : ℚ}
    : Rounds places q r ↔ r = roundFraction places q := by
  constructor
  · intro rounds
    have same := rounds_roundFraction places q
    exact le_antisymm (rounds.le same le_rfl) (same.le rounds le_rfl)
  · rintro rfl
    exact rounds_roundFraction places q

theorem roundFraction_mono (places : ℕ) : Monotone (roundFraction places) :=
  fun q q' le => (rounds_roundFraction places q).le (rounds_roundFraction places q') le

/-- What has no more places stays as it is. -/
theorem roundFraction_units (places : ℕ) (units : ℤ)
    : roundFraction places (units / 10 ^ places) = units / 10 ^ places := by
  refine (rounds_iff.mp ⟨units, rfl, ?_⟩).symm
  rw [div_mul_cancel₀ _ (by positivity)]
  constructor <;> norm_num

theorem roundFraction_mem (places : ℕ) {q : ℚ} (inside : q ∈ Set.Icc 0 1)
    : roundFraction places q ∈ Set.Icc 0 1 := by
  have zero := roundFraction_units places 0
  have one := roundFraction_units places (10 ^ places)
  simp only [Int.cast_zero, zero_div] at zero
  simp only [Int.cast_pow, Int.cast_ofNat, div_self (by positivity : (10 : ℚ) ^ places ≠ 0)] at one
  constructor
  · rw [← zero]
    exact roundFraction_mono places inside.1
  · rw [← one]
    exact roundFraction_mono places inside.2

-----------------------------------------------------------------------------------------
-- Numbers between zero and one
-----------------------------------------------------------------------------------------

/-- The fraction that clamping a number yields. -/
def clamped : Exact → ℚ
  | notANumber => 0
  | infinity negative => if negative then 0 else 1
  | fraction q => max 0 (min q 1)

theorem clampUnit_eq (x : Exact) : Scale.clampUnit x = fraction x.clamped := by
  cases x with
  | notANumber => rfl
  | infinity negative => rfl
  | fraction q =>
      change fraction _ = fraction _
      congr 1
      grind [clamped]

theorem clamped_mem (x : Exact) : x.clamped ∈ Set.Icc 0 1 := by
  cases x with
  | notANumber => simp [clamped]
  | infinity negative => cases negative <;> simp [clamped]
  | fraction q => simp [clamped]

theorem clamped_of_mem {q : ℚ} (inside : q ∈ Set.Icc 0 1) : (fraction q).clamped = q := by
  simp [clamped, inside.1, inside.2]

theorem clamped_mono {x y : Exact} (le : Scale.atMost x y = true) : x.clamped ≤ y.clamped := by
  have low := y.clamped_mem.1
  have high := x.clamped_mem.2
  cases x with
  | notANumber => cases y <;> cases le
  | infinity negative =>
      cases negative with
      | true => exact low
      | false =>
          cases y with
          | notANumber | fraction _ => cases le
          | infinity other =>
              cases other with
              | true => cases le
              | false => exact le_rfl
  | fraction q =>
      cases y with
      | notANumber => cases le
      | infinity negative =>
          cases negative with
          | true => cases le
          | false => exact high
      | fraction q' =>
          rw [atMost_fraction] at le
          exact max_le_max_left 0 (min_le_min_right 1 le)

/-- The number is a fraction between zero and one. -/
def InUnit (x : Exact) : Prop :=
  ∃ q ∈ Set.Icc (0 : ℚ) 1, x = fraction q

theorem inUnit_clampUnit (x : Exact) : InUnit (Scale.clampUnit x) :=
  ⟨_, x.clamped_mem, clampUnit_eq x⟩

theorem InUnit.clampUnit_eq {x : Exact} (inUnit : InUnit x) : Scale.clampUnit x = x := by
  obtain ⟨q, inside, rfl⟩ := inUnit
  rw [Exact.clampUnit_eq, clamped_of_mem inside]

theorem InUnit.round {x : Exact} (inUnit : InUnit x) (places : ℕ)
    : InUnit (Scale.round places x) := by
  obtain ⟨q, inside, rfl⟩ := inUnit
  exact ⟨_, roundFraction_mem places inside, rfl⟩

end Vetting.Exact
