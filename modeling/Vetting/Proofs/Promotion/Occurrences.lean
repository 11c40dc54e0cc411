import Vetting.Promotion.Findings
import Vetting.Proofs.Score.Coverage

/-! Words that stand in a content as they are. Forbidden texts and expected names are looked for in
lower case, the word and the content each lower-cased by itself. So a word is found where its capital
sigmas end words as they do in the word alone, and one whose edges are open is missed in some content
that it stands in.
-/

namespace Vetting

open Text

variable {content more : List Char} {names : List String} {name : String}

theorem firstForbidden_ne_none_iff
    : firstForbidden content names ≠ none
      ↔ ∃ name ∈ names, name ≠ "" ∧ mentions content name = true := by
  simp [firstForbidden, mentions, List.find?_eq_none, ← String.toList_eq_nil_iff]

theorem firstForbidden_singleton (missed : mentions content name = false)
    : firstForbidden content [name] = none := by
  by_contra found
  obtain ⟨_, alone, _, told⟩ := firstForbidden_ne_none_iff.mp found
  rw [List.mem_singleton.mp alone, missed] at told
  cases told

/-- A word is found in every content that it stands in when its edges are not open. -/
theorem mentions_of_closed (noStart : ¬ HasOpenStart name.toList) (noEnd : ¬ HasOpenEnd name.toList)
    (stands : name.toList <:+: content)
    : mentions content name = true := by
  obtain ⟨front, back, rfl⟩ := stands
  exact mentions_iff.mpr (readsAlike_of_closed noStart noEnd _ _).infix_lower

theorem exists_unmentioned (isOpen : HasOpenStart name.toList ∨ HasOpenEnd name.toList)
    : ∃ content, name.toList <:+: content ∧ mentions content name = false := by
  rcases isOpen with isOpen | isOpen
  · obtain ⟨c, missed⟩ := isOpen.exists_missed
    refine ⟨c :: name.toList, (List.suffix_cons _ _).isInfix, ?_⟩
    rwa [← Bool.not_eq_true, mentions_iff]
  · obtain ⟨c, missed⟩ := isOpen.exists_missed
    refine ⟨name.toList ++ [c], (List.prefix_append _ _).isInfix, ?_⟩
    rwa [← Bool.not_eq_true, mentions_iff]

-----------------------------------------------------------------------------------------
-- Coverage
-----------------------------------------------------------------------------------------

/-- No name is lost when a content whose end is not open is continued. -/
theorem covered_sublist (noEnd : ¬ HasOpenEnd content)
    : (covered content names).Sublist (covered (content ++ more) names) := by
  refine List.monotone_filter_right names fun name found => ?_
  have stands := contains_iff.mp found
  have begins := (readsAlike_of_closedEnd noEnd more).prefix_lower
  exact contains_iff.mpr (stands.trans begins.isInfix)

theorem coverageScore_mono (noEnd : ¬ HasOpenEnd content)
    : Scale.atMost (coverageScore content names : Exact) (coverageScore (content ++ more) names)
      = true := by
  have grows : names.countP (mentions content) ≤ names.countP (mentions (content ++ more)) := by
    rw [← length_covered, ← length_covered]
    exact (covered_sublist noEnd).length_le
  refine atMost_coverageScore ?_
  unfold coverage
  split
  · rfl
  · gcongr

/-- A content whose end is open is expected to mention itself, and does not once it is continued. -/
theorem coverageScore_falls (isOpen : HasOpenEnd content)
    : ∃ more names,
        Scale.atMost (coverageScore content names : Exact) (coverageScore (content ++ more) names)
          = false := by
  obtain ⟨c, missed⟩ := isOpen.exists_missed
  have own : mentions content (String.ofList content) = true := by
    simp only [mentions_iff, String.toList_ofList, List.infix_rfl]
  have lost : mentions (content ++ [c]) (String.ofList content) = false := by
    rwa [← Bool.not_eq_true, mentions_iff, String.toList_ofList]
  refine ⟨[c], [String.ofList content], ?_⟩
  rw [← Bool.not_eq_true, coverageScore_eq, coverageScore_eq, Exact.atMost_fraction, not_le]
  simp only [coverage, List.cons_ne_nil, if_false, List.countP_singleton, List.length_singleton, own,
    lost]
  decide +kernel

-----------------------------------------------------------------------------------------
-- Words that are found
-----------------------------------------------------------------------------------------

/-- A word that stands in a content is found there, as a forbidden text and as an expected name, when
its capital sigmas end words as they do in the word alone. That is so in every content when the edges
of the word are not open, and otherwise there is a content in which it is missed. The coverage never
falls when a content is continued exactly when the end of the content is not open.
-/
theorem literal_occurrences_found (listed : name ∈ names) (nonempty : name ≠ "")
    : (∀ front back,
        ReadsAlike front.reverse name.toList back
        → firstForbidden (front ++ name.toList ++ back) names ≠ none
          ∧ name ∈ covered (front ++ name.toList ++ back) names)
      ∧ (¬ HasOpenStart name.toList ∧ ¬ HasOpenEnd name.toList
        → ∀ content,
            name.toList <:+: content
            → firstForbidden content names ≠ none ∧ name ∈ covered content names)
      ∧ (HasOpenStart name.toList ∨ HasOpenEnd name.toList
        → ∃ content,
            name.toList <:+: content
            ∧ firstForbidden content [name] = none
            ∧ name ∉ covered content names)
      ∧ ∀ content,
          (∀ more expected,
            Scale.atMost (coverageScore content expected : Exact)
              (coverageScore (content ++ more) expected) = true)
          ↔ ¬ HasOpenEnd content := by
  have found : ∀ content, mentions content name = true →
      firstForbidden content names ≠ none ∧ name ∈ covered content names := fun content told =>
    ⟨firstForbidden_ne_none_iff.mpr ⟨name, listed, nonempty, told⟩, mem_covered.mpr ⟨listed, told⟩⟩
  refine ⟨?_, ?_, ?_, ?_⟩
  · intro front back alike
    exact found _ (mentions_iff.mpr alike.infix_lower)
  · intro closed content stands
    exact found content (mentions_of_closed closed.1 closed.2 stands)
  · intro isOpen
    obtain ⟨content, stands, missed⟩ := exists_unmentioned isOpen
    refine ⟨content, stands, firstForbidden_singleton missed, fun told => ?_⟩
    rw [mem_covered, missed] at told
    cases told.2
  · intro content
    refine ⟨fun kept isOpen => ?_, fun noEnd more expected => coverageScore_mono noEnd⟩
    obtain ⟨more, expected, falls⟩ := coverageScore_falls isOpen
    rw [kept more expected] at falls
    cases falls

/-- A word with a capital sigma between two letters is found wherever it stands. -/
theorem literal_occurrences_found_inside
    : "aΣb" ∈ ["x", "aΣb"]
      ∧ "aΣb" ≠ ""
      ∧ ∀ content,
          "aΣb".toList <:+: content
          → firstForbidden content ["x", "aΣb"] ≠ none
            ∧ "aΣb" ∈ covered content ["x", "aΣb"] := by
  have listed : "aΣb" ∈ ["x", "aΣb"] := by decide
  have nonempty : "aΣb" ≠ "" := by decide
  have stays : ∀ c ∈ ['a', 'b'], isCaseIgnorable c = false := by
    intro c member
    have letter : 97 ≤ c.toNat ∧ c.toNat ≤ 122 := by
      rcases List.mem_pair.mp member with rfl | rfl <;> decide
    exact isCaseIgnorable_smallLetter letter.1 letter.2
  refine ⟨listed, nonempty, (literal_occurrences_found listed nonempty).2.1 ⟨?_, ?_⟩⟩
  · exact not_hasOpenStart_cons (stays 'a' (by decide)) (by decide) ['Σ', 'b']
  · exact not_hasOpenEnd_concat (stays 'b' (by decide)) (by decide) ['a', 'Σ']

/-- A capital sigma that ends a word in a content is not found as a word of its own. -/
theorem sigma_missed_at_word_end
    : "Σ".toList <:+: "§ sumΣ".toList
      ∧ firstForbidden "§ sumΣ".toList ["Σ"] = none
      ∧ covered "§ sumΣ".toList ["Σ"] = [] := by
  have ends : sigmaIsFinal ['m', 'u', 's', ' ', '§'] [] = true := by
    rw [sigmaIsFinal_eq, startsCased_smallLetter (by decide) (by decide)]
    rfl
  have lowered : lower ['§', ' ', 's', 'u', 'm', 'Σ'] = ['§', ' ', 's', 'u', 'm', 'ς'] := by
    simp only [lower, lowerFrom, ends]
    decide +kernel
  have spelled : "§ sumΣ".toList = ['§', ' ', 's', 'u', 'm', 'Σ'] := by decide +kernel
  have missed : mentions "§ sumΣ".toList "Σ" = false := by
    rw [mentions, spelled, lowered]
    decide +kernel
  refine ⟨by decide +kernel, firstForbidden_singleton missed, ?_⟩
  rw [covered_eq, List.filter_singleton, missed, cond_false]

end Vetting
