import Vetting.Proofs.Text.Categories
import Vetting.Proofs.Text.Pieces
import Vetting.Text.Letters
import Vetting.Text.Search

/-! Lower-casing, what a text contains, and its lines. Lower-casing maps a run of characters below 128
letter by letter and keeps it together, whatever letters stand around it, so a text in which the run
occurs contains it once both are lower-cased. The end of a line is neither cased nor skipped by the
rule for the final sigma, so what stands beyond it has no part in how a line is lower-cased. A word
without line ends that occurs in a lower-case text therefore occurs in a line of it.
-/

namespace Vetting.Text

-----------------------------------------------------------------------------------------
-- Runs below 128
-----------------------------------------------------------------------------------------

variable {text run needle : List Char}

/-- A text contains what stands in it, by induction on the text. -/
theorem contains_iff : contains text needle = true ↔ needle <:+: text := by
  induction text with
  | nil => simp [contains]
  | cons c rest ih =>
      rw [contains, Bool.or_eq_true, ih, List.isPrefixOf_iff_prefix, List.infix_cons_iff]

/-- A capital letter of ASCII is mapped to the small one, every other character to itself. -/
theorem toNat_toLower (c : Char)
    : c.toLower.toNat = if 65 ≤ c.toNat ∧ c.toNat ≤ 90 then c.toNat + 32 else c.toNat := by
  have capital : c.val ≥ 'A'.val ∧ c.val ≤ 'Z'.val ↔ 65 ≤ c.toNat ∧ c.toNat ≤ 90 :=
    and_congr UInt32.le_iff_toNat_le UInt32.le_iff_toNat_le
  unfold Char.toLower
  by_cases upper : 65 ≤ c.toNat ∧ c.toNat ≤ 90
  · rw [if_pos upper, dif_pos (capital.mpr upper)]
    change (c.toNat + 32) % 2 ^ 32 = c.toNat + 32
    omega
  · rw [if_neg upper, dif_neg (mt capital.mp upper)]

/-- The case of a letter does not tell whether it is below 128. -/
theorem toNat_toLower_lt_iff {c : Char} : c.toLower.toNat < 128 ↔ c.toNat < 128 := by
  rw [toNat_toLower]
  split <;> omega

theorem isAlpha_iff {c : Char}
    : c.isAlpha = true ↔ 65 ≤ c.toNat ∧ c.toNat ≤ 90 ∨ 97 ≤ c.toNat ∧ c.toNat ≤ 122 := by
  have upper : c.isUpper = true ↔ 65 ≤ c.toNat ∧ c.toNat ≤ 90 :=
    decide_eq_true_iff.trans (and_congr UInt32.le_iff_toNat_le UInt32.le_iff_toNat_le)
  have lower : c.isLower = true ↔ 97 ≤ c.toNat ∧ c.toNat ≤ 122 := by
    change (decide ('a'.val ≤ c.val) && decide (c.val ≤ 'z'.val)) = true ↔ _
    rw [Bool.and_eq_true, decide_eq_true_iff, decide_eq_true_iff]
    exact and_congr UInt32.le_iff_toNat_le UInt32.le_iff_toNat_le
  change (c.isUpper || c.isLower) = true ↔ _
  rw [Bool.or_eq_true, upper, lower]

/-- Only letters differ in case. -/
theorem eq_or_isAlpha {c d : Char} (same : c.toLower = d.toLower)
    : c = d ∨ c.isAlpha = true ∧ d.isAlpha = true := by
  have code := congrArg Char.toNat same
  rw [toNat_toLower, toNat_toLower] at code
  by_cases equal : c.toNat = d.toNat
  · exact .inl (Char.toNat_inj.mp equal)
  · rw [isAlpha_iff, isAlpha_iff]
    right
    split at code <;> split at code <;> omega

/-- Below 128, a character is mapped by itself. -/
theorem lowerFrom_cons {c : Char} (small : c.toNat < 128) (before rest : List Char)
    : lowerFrom before (c :: rest) = c.toLower :: lowerFrom (c :: before) rest := by
  have noSigma : c ≠ 'Σ' := by
    rintro rfl
    exact absurd small (by decide)
  have noDot : c ≠ 'İ' := by
    rintro rfl
    exact absurd small (by decide)
  simp [lowerFrom, noSigma, noDot, toLower, small]

/-- A run of characters below 128 is mapped letter by letter, by induction on it. -/
theorem lowerFrom_run (small : ∀ c ∈ run, c.toNat < 128) (before back : List Char)
    : lowerFrom before (run ++ back)
      = run.map Char.toLower ++ lowerFrom (run.reverse ++ before) back := by
  induction run generalizing before with
  | nil => rfl
  | cons c rest ih =>
      obtain ⟨here, others⟩ := List.forall_mem_cons.mp small
      rw [List.cons_append, lowerFrom_cons here, ih others]
      simp

/-- A run of characters below 128 stays together when a text is lower-cased, by induction on what
stands before it.
-/
theorem infix_lowerFrom (small : ∀ c ∈ run, c.toNat < 128) (front before back : List Char)
    : run.map Char.toLower <:+: lowerFrom before (front ++ (run ++ back)) := by
  induction front generalizing before with
  | nil =>
      rw [List.nil_append, lowerFrom_run small]
      exact (List.prefix_append _ _).isInfix
  | cons c rest ih =>
      rw [List.cons_append, lowerFrom]
      exact (ih (c :: before)).trans (List.suffix_append _ _).isInfix

/-- A text is lower-cased letter by letter when all of its characters are below 128. -/
theorem lower_of_small (small : ∀ c ∈ text, c.toNat < 128) : lower text = text.map Char.toLower := by
  have whole := lowerFrom_run small [] []
  rw [List.append_nil] at whole
  rw [lower, whole, lowerFrom, List.append_nil]

/-- What occurs in a text up to the case of letters below 128 is found once both are lower-cased. -/
theorem contains_lower (small : ∀ c ∈ run, c.toNat < 128) (smallNeedle : ∀ c ∈ needle, c.toNat < 128)
    (same : run.map Char.toLower = needle.map Char.toLower) (stands : run <:+: text)
    : contains (lower text) (lower needle) = true := by
  obtain ⟨front, back, rfl⟩ := stands
  rw [contains_iff, lower_of_small smallNeedle, ← same, List.append_assoc]
  exact infix_lowerFrom small front [] back

-----------------------------------------------------------------------------------------
-- Barriers
-----------------------------------------------------------------------------------------

/-- A character that lower-casing keeps, and beyond which it does not look. -/
structure IsBarrier (c : Char) : Prop where
  kept : ∀ before rest, lowerFrom before (c :: rest) = c :: lowerFrom (c :: before) rest
  notIgnorable : isCaseIgnorable c = false
  notCased : isCased c = false

theorem isBarrier_lineFeed : IsBarrier '\n' :=
  ⟨lowerFrom_cons (by decide), isCaseIgnorable_control (by decide), by decide⟩

theorem isBarrier_return : IsBarrier '\r' :=
  ⟨lowerFrom_cons (by decide), isCaseIgnorable_control (by decide), by decide⟩

variable {barrier : Char}

/-- The first letter that is not skipped is not looked for beyond a barrier, by induction on what
stands before it.
-/
theorem IsBarrier.nextCased (blocks : IsBarrier barrier) (near far : List Char)
    : (((near ++ barrier :: far).dropWhile isCaseIgnorable).head?.map isCased).getD false
      = ((near.dropWhile isCaseIgnorable).head?.map isCased).getD false := by
  induction near with
  | nil => simp [blocks.notIgnorable, blocks.notCased]
  | cons c rest ih =>
      cases skipped : isCaseIgnorable c <;> simp [skipped, ih]

theorem IsBarrier.sigmaIsFinal_before (blocks : IsBarrier barrier) (near far after : List Char)
    : sigmaIsFinal (near ++ barrier :: far) after = sigmaIsFinal near after := by
  simp only [sigmaIsFinal, blocks.nextCased]

theorem IsBarrier.sigmaIsFinal_after (blocks : IsBarrier barrier) (before near far : List Char)
    : sigmaIsFinal before (near ++ barrier :: far) = sigmaIsFinal before near := by
  simp only [sigmaIsFinal, blocks.nextCased]

/-- What stands before a barrier has no part in the lower-case text behind it, by induction on that
text.
-/
theorem IsBarrier.lowerFrom_beyond (blocks : IsBarrier barrier) (near far text : List Char)
    : lowerFrom (near ++ barrier :: far) text = lowerFrom near text := by
  induction text generalizing near with
  | nil => rfl
  | cons c rest ih =>
      have onward := ih (c :: near)
      rw [List.cons_append] at onward
      simp only [lowerFrom, blocks.sigmaIsFinal_before, onward]

/-- A text is lower-cased on either side of a barrier by itself, by induction on the text before it.
-/
theorem IsBarrier.lowerFrom_append (blocks : IsBarrier barrier) (before front back : List Char)
    : lowerFrom before (front ++ barrier :: back)
      = lowerFrom before front ++ barrier :: lower back := by
  induction front generalizing before with
  | nil =>
      rw [List.nil_append, blocks.kept, ← List.nil_append (barrier :: before),
        blocks.lowerFrom_beyond, lower]
      rfl
  | cons c rest ih =>
      simp only [List.cons_append, lowerFrom, blocks.sigmaIsFinal_after, ih, List.append_assoc]

theorem IsBarrier.lower_append (blocks : IsBarrier barrier) (front back : List Char)
    : lower (front ++ barrier :: back) = lower front ++ barrier :: lower back :=
  blocks.lowerFrom_append [] front back

-----------------------------------------------------------------------------------------
-- Words in lines
-----------------------------------------------------------------------------------------

variable {word text : List Char} {pieces : List (List Char)}

/-- A word in the lower-case text of joined pieces stands in that of one of them, by induction on
the pieces.
-/
theorem IsBarrier.exists_piece (blocks : IsBarrier barrier) (absent : barrier ∉ word)
    (some : pieces ≠ []) (stands : word <:+: lower ([barrier].intercalate pieces))
    : ∃ piece ∈ pieces, word <:+: lower piece := by
  induction pieces with
  | nil => exact absurd rfl some
  | cons first rest ih =>
      cases rest with
      | nil => exact ⟨first, List.mem_cons_self, by simpa using stands⟩
      | cons second others =>
          rw [List.intercalate_cons_cons, List.append_assoc, List.singleton_append,
            blocks.lower_append] at stands
          rcases infix_of_not_mem absent stands with inFirst | onward
          · exact ⟨first, List.mem_cons_self, inFirst⟩
          · obtain ⟨piece, member, inside⟩ := ih (by simp) onward
            exact ⟨piece, List.mem_cons_of_mem _ member, inside⟩

/-- A word that is not empty is not lost with the return at the end of a line. -/
theorem infix_lower_dropReturn (some : word ≠ []) (absent : '\r' ∉ word)
    (stands : word <:+: lower text)
    : word <:+: lower (dropReturn text) := by
  unfold dropReturn
  split
  · rename_i ends
    obtain ⟨front, rfl⟩ := List.getLast?_eq_some_iff.mp (by simpa using ends)
    rw [isBarrier_return.lower_append] at stands
    rw [List.dropLast_concat]
    exact (infix_of_not_mem absent stands).resolve_right fun inRest =>
      some (List.infix_nil.mp inRest)
  · exact stands

/-- A word without line ends that occurs in the lower-case text occurs in a lower-case line. -/
theorem exists_line_of_infix_lower (some : word ≠ []) (noFeed : '\n' ∉ word)
    (noReturn : '\r' ∉ word) (stands : word <:+: lower text)
    : ∃ line ∈ lines text, word <:+: lower line := by
  have whole : ['\n'].intercalate (splitChar '\n' text) = text := by
    rw [splitChar_eq]
    exact List.intercalate_splitOn '\n'
  have pieces : splitChar '\n' text ≠ [] := by
    rw [splitChar_eq]
    exact List.splitOn_ne_nil _ _
  rw [← whole] at stands
  obtain ⟨piece, member, inside⟩ := isBarrier_lineFeed.exists_piece noFeed pieces stands
  have last : (splitChar '\n' text).getLastD [] = (splitChar '\n' text).getLast pieces := by
    rw [List.getLastD_eq_getLast?, List.getLast?_eq_some_getLast pieces]
    rfl
  rw [← List.dropLast_concat_getLast pieces, List.mem_append, List.mem_singleton] at member
  unfold lines
  simp only [last]
  rcases member with closed | rfl
  · refine ⟨dropReturn piece, ?_, infix_lower_dropReturn some noReturn inside⟩
    have listed : dropReturn piece ∈ (splitChar '\n' text).dropLast.map dropReturn :=
      List.mem_map_of_mem closed
    split
    · exact listed
    · exact List.mem_append_left _ listed
  · have visible : ((splitChar '\n' text).getLast pieces).isEmpty = false := by
      rw [List.isEmpty_eq_false_iff]
      intro empty
      rw [empty] at inside
      exact some (List.infix_nil.mp inside)
    exact ⟨_, by simp [visible], inside⟩

-----------------------------------------------------------------------------------------
-- Lines one after another
-----------------------------------------------------------------------------------------

/-- A text up to its first line feed is its first line, but for a return at the end. -/
theorem lines_append {line : List Char} (noFeed : '\n' ∉ line) (rest : List Char)
    : lines (line ++ '\n' :: rest) = dropReturn line :: lines rest := by
  have pieces : splitChar '\n' rest ≠ [] := by
    rw [splitChar_eq]
    exact List.splitOn_ne_nil _ _
  unfold lines
  simp only [splitChar_append noFeed, List.dropLast_cons_of_ne_nil pieces,
    List.getLastD_eq_getLast?, List.getLast?_cons_of_ne_nil pieces, List.map_cons]
  split <;> rfl

theorem dropReturn_of_not_mem {line : List Char} (noReturn : '\r' ∉ line)
    : dropReturn line = line := by
  unfold dropReturn
  rw [if_neg]
  intro ends
  exact noReturn (List.mem_of_getLast? (by simpa using ends))

end Vetting.Text
