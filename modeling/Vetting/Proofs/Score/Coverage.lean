import Vetting.Proofs.Score.Fractions
import Vetting.Proofs.Text.FinalSigma
import Vetting.Score.Coverage

/-! Coverage. A name is looked for in lower case, and neither the order of the names nor the case of a
letter of ASCII, in the content or in a name, has a part in what is found. One more name moves the
coverage in one direction only: a name that is mentioned does not lower it, and one that is not does
not raise it.
-/

namespace Vetting

open Text

variable {content other : List Char} {names names' : List String} {name : String}

-----------------------------------------------------------------------------------------
-- Names that are mentioned
-----------------------------------------------------------------------------------------

theorem mentions_iff : mentions content name = true ↔ lower name.toList <:+: lower content :=
  contains_iff

theorem covered_eq (content : List Char) (names : List String)
    : covered content names = names.filter (mentions content) :=
  rfl

theorem mem_covered : name ∈ covered content names ↔ name ∈ names ∧ mentions content name = true :=
  List.mem_filter

theorem length_covered (content : List Char) (names : List String)
    : (covered content names).length = names.countP (mentions content) := by
  rw [covered_eq, List.countP_eq_length_filter]

/-- The same name but for the case of its letters of ASCII. -/
def SameName (name other : String) : Prop :=
  SameLetters name.toList other.toList

instance : DecidableRel SameName :=
  fun name other => inferInstanceAs (Decidable (SameLetters name.toList other.toList))

theorem mentions_eq {name' : String} (same : SameLetters content other) (named : SameName name name')
    : mentions content name = mentions other name' := by
  rw [mentions, mentions, same.lower_eq, SameLetters.lower_eq named]

/-- As many names are mentioned in any case of their letters, by induction on the names. -/
theorem countP_mentions (content : List Char) (alike : List.Forall₂ SameName names names')
    : names.countP (mentions content) = names'.countP (mentions content) := by
  induction alike with
  | nil => rfl
  | cons named _ ih => rw [List.countP_cons, List.countP_cons, ih, mentions_eq (.refl content) named]

/-- Nothing but the number of the names and of those that are mentioned has a part in the score. -/
theorem coverageScore_congr {R : Type} [Scale R] (expected : names.length = names'.length)
    (mentioned : names.countP (mentions content) = names'.countP (mentions other))
    : (coverageScore content names : R) = coverageScore other names' := by
  have none : names.isEmpty = names'.isEmpty := by
    rw [Bool.eq_iff_iff, List.isEmpty_iff_length_eq_zero, List.isEmpty_iff_length_eq_zero, expected]
  rw [coverageScore, coverageScore, none, length_covered, length_covered, mentioned, expected]

-----------------------------------------------------------------------------------------
-- One more name
-----------------------------------------------------------------------------------------

/-- The fraction of the names that a content mentions, before it is rounded; nothing is missed where
nothing is expected.
-/
def coverage (content : List Char) (names : List String) : ℚ :=
  if names = [] then 1 else (names.countP (mentions content) : ℚ) / names.length

theorem coverageScore_eq (content : List Char) (names : List String)
    : (coverageScore content names : Exact)
      = .fraction (Exact.roundFraction 4 (coverage content names)) := by
  by_cases none : names = []
  · have whole : Exact.roundFraction 4 1 = 1 := by decide +kernel
    simp [none, coverageScore, coverage, whole]
  · have listed : names.isEmpty = false := by simpa using none
    rw [coverageScore, listed, coverage, if_neg none, ← length_covered]
    simp

theorem atMost_coverageScore (le : coverage content names ≤ coverage other names')
    : Scale.atMost (coverageScore content names : Exact) (coverageScore other names') = true := by
  rw [coverageScore_eq, coverageScore_eq, Exact.atMost_fraction]
  exact Exact.roundFraction_mono 4 le

theorem coverage_perm (permuted : names'.Perm names) (content : List Char)
    : coverage content names' = coverage content names := by
  have none : names' = [] ↔ names = [] := by
    rw [← List.length_eq_zero_iff, permuted.length_eq, List.length_eq_zero_iff]
  rw [coverage, coverage, permuted.countP_eq, permuted.length_eq]
  exact if_congr none rfl rfl

/-- With one more name that is mentioned, both numbers of the quotient are greater by one. -/
theorem coverage_le_of_mentions (told : mentions content name = true)
    : coverage content names ≤ coverage content (name :: names) := by
  have some : name :: names ≠ [] := List.cons_ne_nil _ _
  by_cases none : names = []
  · simp [none, coverage, told]
  · have size : (0 : ℚ) < names.length := by exact_mod_cast List.length_pos_iff.mpr none
    have part : (names.countP (mentions content) : ℚ) ≤ names.length := by
      exact_mod_cast List.countP_le_length
    rw [coverage, if_neg none, coverage, if_neg some, List.countP_cons_of_pos told, List.length_cons]
    push_cast
    rw [div_le_div_iff₀ size (by positivity)]
    linarith

/-- With one more name that is not, only the lower one is. -/
theorem le_coverage_of_not_mentions (missed : mentions content name = false)
    : coverage content (name :: names) ≤ coverage content names := by
  have some : name :: names ≠ [] := List.cons_ne_nil _ _
  have untold : ¬ mentions content name = true := by simp [missed]
  rw [coverage, if_neg some, List.countP_cons_of_neg untold, List.length_cons]
  push_cast
  by_cases none : names = []
  · simp [none, coverage]
  · have size : (0 : ℚ) < names.length := by exact_mod_cast List.length_pos_iff.mpr none
    rw [coverage, if_neg none]
    gcongr
    linarith

-----------------------------------------------------------------------------------------
-- What coverage depends on
-----------------------------------------------------------------------------------------

/-- The coverage of a content is the same for any order of the names, and for any case of the letters
of ASCII in the content and in the names, whatever the scale. Before it is rounded, and when it is
rounded exactly, it is not lowered by one more name that the content mentions, and not raised by one
that it does not, wherever in the list the name is.
-/
theorem coverage_of_named {R : Type} [Scale R] (content : List Char) (names : List String)
    : (∀ names',
        names'.Perm names → (coverageScore content names' : R) = coverageScore content names)
      ∧ (∀ content',
          SameLetters content' content
          → (coverageScore content' names : R) = coverageScore content names)
      ∧ (∀ names',
          List.Forall₂ SameName names' names
          → (coverageScore content names' : R) = coverageScore content names)
      ∧ (coverageScore content names : Exact)
          = .fraction (Exact.roundFraction 4 (coverage content names))
      ∧ ∀ front name back,
          names = front ++ back
          → (mentions content name = true
              → coverage content names ≤ coverage content (front ++ name :: back)
                ∧ Scale.atMost (coverageScore content names : Exact)
                    (coverageScore content (front ++ name :: back)) = true)
            ∧ (mentions content name = false
              → coverage content (front ++ name :: back) ≤ coverage content names
                ∧ Scale.atMost (coverageScore content (front ++ name :: back) : Exact)
                    (coverageScore content names) = true) := by
  refine ⟨?_, ?_, ?_, coverageScore_eq content names, ?_⟩
  · intro names' permuted
    exact coverageScore_congr permuted.length_eq (permuted.countP_eq _)
  · intro content' same
    refine coverageScore_congr rfl (List.countP_congr fun name _ => ?_)
    rw [mentions_eq same (.refl name.toList)]
  · intro names' alike
    exact coverageScore_congr alike.length_eq (countP_mentions content alike)
  · rintro front name back rfl
    have moved : (front ++ name :: back).Perm (name :: (front ++ back)) := List.perm_middle
    have anywhere := coverage_perm moved content
    refine ⟨fun told => ?_, fun missed => ?_⟩
    · have le : coverage content (front ++ back) ≤ coverage content (front ++ name :: back) := by
        rw [anywhere]
        exact coverage_le_of_mentions told
      exact ⟨le, atMost_coverageScore le⟩
    · have le : coverage content (front ++ name :: back) ≤ coverage content (front ++ back) := by
        rw [anywhere]
        exact le_coverage_of_not_mentions missed
      exact ⟨le, atMost_coverageScore le⟩

/-- The coverage of two names by a word with a final sigma: in the other order, in capital letters, and
with one more name.
-/
theorem coverage_of_named_final_sigma
    : (["b", "sum"].Perm ["sum", "b"]
        ∧ (coverageScore "sumΣ".toList ["b", "sum"] : Float)
          = coverageScore "sumΣ".toList ["sum", "b"])
      ∧ (SameLetters "SUMΣ".toList "sumΣ".toList
        ∧ (coverageScore "SUMΣ".toList ["sum", "b"] : Float)
          = coverageScore "sumΣ".toList ["sum", "b"])
      ∧ (List.Forall₂ SameName ["Sum", "B"] ["sum", "b"]
        ∧ (coverageScore "sumΣ".toList ["Sum", "B"] : Float)
          = coverageScore "sumΣ".toList ["sum", "b"])
      ∧ (mentions "sumΣ".toList "UM" = true
        ∧ coverage "sumΣ".toList ["sum", "b"] ≤ coverage "sumΣ".toList ["sum", "UM", "b"])
      ∧ mentions "sumΣ".toList "x" = false
      ∧ coverage "sumΣ".toList ["sum", "x", "b"] ≤ coverage "sumΣ".toList ["sum", "b"] := by
  obtain ⟨order, content, letters, _, more⟩ :=
    @coverage_of_named Float _ "sumΣ".toList ["sum", "b"]
  have swapped : ["b", "sum"].Perm ["sum", "b"] := List.Perm.swap _ _ _
  have capitals : SameLetters "SUMΣ".toList "sumΣ".toList := by decide +kernel
  have named : List.Forall₂ SameName ["Sum", "B"] ["sum", "b"] :=
    .cons (by decide +kernel) (.cons (by decide +kernel) .nil)
  have ends : sigmaIsFinal ['m', 'u', 's'] [] = true := by
    rw [sigmaIsFinal_eq, startsCased_smallLetter (by decide) (by decide)]
    rfl
  have lowered : lower "sumΣ".toList = ['s', 'u', 'm', 'ς'] := by
    rw [show "sumΣ".toList = ['s', 'u', 'm', 'Σ'] by decide +kernel]
    simp only [lower, lowerFrom, ends]
    decide +kernel
  have told : mentions "sumΣ".toList "UM" = true := by
    rw [mentions, lowered]
    decide +kernel
  have missed : mentions "sumΣ".toList "x" = false := by
    rw [mentions, lowered]
    decide +kernel
  refine ⟨⟨swapped, order _ swapped⟩, ⟨capitals, content _ capitals⟩, ⟨named, letters _ named⟩, ?_⟩
  exact ⟨⟨told, ((more ["sum"] "UM" ["b"] rfl).1 told).1⟩, missed,
    ((more ["sum"] "x" ["b"] rfl).2 missed).1⟩

end Vetting
