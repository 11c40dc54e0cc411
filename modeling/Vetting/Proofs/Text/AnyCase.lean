import Vetting.Markup.Event
import Vetting.Proofs.Text.Lowering
import Vetting.Proofs.Text.Utf8

/-! Words of ASCII in a text, in any letter case. Two characters beyond ASCII are lower-cased to
letters of it: the Kelvin sign to `k`, and the capital `I` with a dot to `i` and a mark. So a word
without a `k` that does not end in `i` occurs in a lower-case text only where the text has it in some
letter case.
-/

namespace Vetting.Text

variable {text word : List Char} {c : Char}

/-- A word stands in a text, but for the case of its letters. -/
def OccursAnyCase (text word : List Char) : Prop :=
  ∃ run, run <:+: text ∧ run.map Char.toLower = word.map Char.toLower

-----------------------------------------------------------------------------------------
-- Letters
-----------------------------------------------------------------------------------------

/-- A code point is moved by a shift that covers it. -/
theorem Shift.move?_eq_some {shifts : Array Shift} {n moved : Nat}
    (found : Shift.move? shifts n = some moved)
    : ∃ s ∈ shifts, s.first ≤ n ∧ n ≤ s.last ∧ moved = ((n : Int) + s.delta).toNat := by
  obtain ⟨s, covers, rfl⟩ := Option.map_eq_some_iff.mp found
  have within := Array.find?_some covers
  simp only [Bool.and_eq_true, decide_eq_true_eq] at within
  exact ⟨s, Array.mem_of_find?_eq_some covers, within.1.1, within.1.2, rfl⟩

/-- A shift stays beyond ASCII and outside the surrogates, unless it is that of the Kelvin sign. -/
theorem lowerShifts_bounds
    : ∀ s ∈ lowerShifts,
        s.first = 0x212A ∧ s.last = 0x212A ∧ s.delta = -8383
        ∨ 128 ≤ s.first + s.delta
          ∧ (s.last + s.delta < 0xD800 ∨ 0xDFFF < s.first + s.delta ∧ s.last + s.delta < 0x110000) := by
  decide +kernel

/-- A character whose lower-case character is in ASCII is in ASCII, but for the Kelvin sign. -/
theorem lt_of_toLower (small : (toLower c).toNat < 128) (other : toLower c ≠ 'k')
    : c.toNat < 128 := by
  by_contra large
  unfold toLower at small other
  rw [if_neg large] at small other
  cases found : Shift.move? lowerShifts c.toNat with
  | none =>
      rw [found] at small
      exact large small
  | some moved =>
      rw [found] at small other
      obtain ⟨s, listed, first, last, rfl⟩ := Shift.move?_eq_some found
      rcases lowerShifts_bounds s listed with ⟨least, most, delta⟩ | ⟨beyond, valid⟩
      · have kelvin : c.toNat = 0x212A := by omega
        refine other ?_
        rw [kelvin, delta]
        rfl
      · have value : (Char.ofNat ((c.toNat : Int) + s.delta).toNat).toNat = _ :=
          toNat_val_ofNat (by omega)
        change (Char.ofNat ((c.toNat : Int) + s.delta).toNat).toNat < 128 at small
        omega

-----------------------------------------------------------------------------------------
-- Words
-----------------------------------------------------------------------------------------

/-- A character is lower-cased to one character, its own where that is in ASCII, or to an `i` and a
mark.
-/
theorem lowerFrom_cons_cases (before : List Char) (c : Char) (rest : List Char)
    : (∃ letter,
        (letter.toNat < 128 → letter = toLower c)
        ∧ lowerFrom before (c :: rest) = letter :: lowerFrom (c :: before) rest)
      ∨ lowerFrom before (c :: rest) = 'i' :: '\u0307' :: lowerFrom (c :: before) rest := by
  rw [lowerFrom]
  split
  · refine .inl ⟨_, fun small => ?_, rfl⟩
    split at small <;> exact absurd small (by decide)
  split
  · exact .inr rfl
  · exact .inl ⟨_, fun _ => rfl, rfl⟩

/-- A word with which the lower-case text begins is the lower-case form of one with which the text
begins, by induction on the text.
-/
theorem exists_prefix_of_lowerFrom (small : ∀ c ∈ word, c.toNat < 128) (noK : 'k' ∉ word)
    (ends : word.getLast? ≠ some 'i') {before : List Char} (starts : word <+: lowerFrom before text)
    : ∃ run, run <+: text ∧ run.map Char.toLower = word := by
  induction text generalizing word before with
  | nil =>
      rw [lowerFrom, List.prefix_nil] at starts
      exact ⟨[], List.nil_prefix, starts.symm⟩
  | cons c rest ih =>
      cases word with
      | nil => exact ⟨[], List.nil_prefix, rfl⟩
      | cons first more =>
          obtain ⟨here, others⟩ := List.forall_mem_cons.mp small
          rw [List.mem_cons, not_or] at noK
          rcases lowerFrom_cons_cases before c rest with ⟨letter, own, lowered⟩ | lowered
          · rw [lowered] at starts
            obtain ⟨rfl, onward⟩ := List.cons_prefix_cons.mp starts
            obtain rfl := own here
            have inAscii := lt_of_toLower here (Ne.symm noK.1)
            have remains : more.getLast? ≠ some 'i' := by
              intro last
              exact ends (by simp [List.getLast?_cons, last])
            obtain ⟨run, begins, same⟩ := ih others noK.2 remains onward
            refine ⟨c :: run, List.cons_prefix_cons.mpr ⟨rfl, begins⟩, ?_⟩
            simp [same, toLower, inAscii]
          · -- The mark behind the letter is beyond ASCII, so the word would end at the letter.
            rw [lowered] at starts
            obtain ⟨rfl, onward⟩ := List.cons_prefix_cons.mp starts
            cases more with
            | nil => exact absurd rfl ends
            | cons second _ =>
                obtain ⟨rfl, _⟩ := List.cons_prefix_cons.mp onward
                exact absurd (others _ List.mem_cons_self) (by decide)

/-- A word that stands in the lower-case text is the lower-case form of one that stands in the text,
by induction on the text.
-/
theorem exists_infix_of_lowerFrom (nonempty : word ≠ []) (small : ∀ c ∈ word, c.toNat < 128)
    (noK : 'k' ∉ word) (ends : word.getLast? ≠ some 'i') {before : List Char}
    (stands : word <:+: lowerFrom before text)
    : ∃ run, run <:+: text ∧ run.map Char.toLower = word := by
  induction text generalizing before with
  | nil =>
      rw [lowerFrom, List.infix_nil] at stands
      exact absurd stands nonempty
  | cons c rest ih =>
      have position
          : word <+: lowerFrom before (c :: rest) ∨ word <:+: lowerFrom (c :: before) rest := by
        rcases lowerFrom_cons_cases before c rest with ⟨letter, _, lowered⟩ | lowered
        · rw [lowered] at stands ⊢
          exact List.infix_cons_iff.mp stands
        · rw [lowered] at stands ⊢
          refine (List.infix_cons_iff.mp stands).imp_right fun behind => ?_
          refine (List.infix_cons_iff.mp behind).resolve_left fun marked => ?_
          cases word with
          | nil => exact nonempty rfl
          | cons first _ =>
              obtain ⟨rfl, _⟩ := List.cons_prefix_cons.mp marked
              exact absurd (small _ List.mem_cons_self) (by decide)
      rcases position with starts | later
      · obtain ⟨run, begins, same⟩ := exists_prefix_of_lowerFrom small noK ends starts
        exact ⟨run, begins.isInfix, same⟩
      · obtain ⟨run, inside, same⟩ := ih later
        exact ⟨run, inside.trans (List.suffix_cons _ _).isInfix, same⟩

/-- A word without a `k` that does not end in `i` occurs in the lower-case text exactly when the text
has it in some letter case.
-/
theorem contains_lower_iff (nonempty : word ≠ []) (small : ∀ c ∈ word, c.toNat < 128)
    (noK : 'k' ∉ word.map Char.toLower) (ends : (word.map Char.toLower).getLast? ≠ some 'i')
    : contains (lower text) (word.map Char.toLower) = true ↔ OccursAnyCase text word := by
  have smallWord : ∀ c ∈ word.map Char.toLower, c.toNat < 128 := by
    intro c member
    obtain ⟨letter, listed, rfl⟩ := List.mem_map.mp member
    exact toNat_toLower_lt_iff.mpr (small letter listed)
  rw [contains_iff]
  constructor
  · exact exists_infix_of_lowerFrom (by simpa using nonempty) smallWord noK ends
  · rintro ⟨run, ⟨front, back, rfl⟩, same⟩
    have smallRun : ∀ c ∈ run, c.toNat < 128 := by
      intro c member
      rw [← toNat_toLower_lt_iff]
      exact smallWord _ (same ▸ List.mem_map_of_mem member)
    rw [← same, List.append_assoc]
    exact infix_lowerFrom smallRun front [] back

-----------------------------------------------------------------------------------------
-- Words on either side of a character
-----------------------------------------------------------------------------------------

theorem occursAnyCase_iff
    : OccursAnyCase text word ↔ word.map Char.toLower <:+: text.map Char.toLower := by
  rw [List.infix_map_iff]
  exact exists_congr fun run => and_congr_right fun _ => eq_comm

theorem startsWithAnyCase_iff
    : Markup.startsWithAnyCase word text = true
      ↔ word.map Char.toLower <+: text.map Char.toLower := by
  rw [Markup.startsWithAnyCase, beq_iff_eq, List.prefix_iff_eq_take, List.map_take,
    List.length_map, eq_comm]

variable {front back : List Char}

/-- A word stands on one side of a character that it does not have in any letter case. -/
theorem occursAnyCase_append_iff (absent : c.toLower ∉ word.map Char.toLower)
    : OccursAnyCase (front ++ c :: back) word
      ↔ OccursAnyCase front word ∨ OccursAnyCase back word := by
  simp only [occursAnyCase_iff, List.map_append, List.map_cons]
  refine ⟨infix_of_not_mem absent, ?_⟩
  rintro (inFront | inBack)
  · exact inFront.trans (List.prefix_append _ _).isInfix
  · exact inBack.trans ((List.suffix_cons _ _).trans (List.suffix_append _ _)).isInfix

/-- A word that has a character nowhere but at its start may stand there as well. -/
theorem occursAnyCase_cons_append_iff (absent : c.toLower ∉ word.map Char.toLower)
    : OccursAnyCase (front ++ c :: back) (c :: word)
      ↔ OccursAnyCase front (c :: word)
        ∨ Markup.startsWithAnyCase word back = true
        ∨ OccursAnyCase back (c :: word) := by
  simp only [occursAnyCase_iff, startsWithAnyCase_iff, List.map_append, List.map_cons]
  constructor
  · intro stands
    rcases List.infix_append_iff.mp stands with inFront | inBack | ⟨start, rest, same, ends, starts⟩
    · exact .inl inFront
    · rcases List.infix_cons_iff.mp inBack with here | inBack
      · exact .inr (.inl (List.cons_prefix_cons.mp here).2)
      · exact .inr (.inr inBack)
    · cases start with
      | nil =>
          rw [List.nil_append] at same
          rw [← same] at starts
          exact .inr (.inl (List.cons_prefix_cons.mp starts).2)
      | cons first more =>
          cases rest with
          | nil =>
              rw [same, List.append_nil]
              exact .inl ends.isInfix
          | cons second _ =>
              obtain ⟨rfl, _⟩ := List.cons_prefix_cons.mp starts
              rw [List.cons_append] at same
              exact absurd (by simp [(List.cons.inj same).2]) absent
  · rintro (inFront | here | inBack)
    · exact inFront.trans (List.prefix_append _ _).isInfix
    · exact ((List.cons_prefix_cons.mpr ⟨rfl, here⟩).isInfix).trans (List.suffix_append _ _).isInfix
    · exact inBack.trans ((List.suffix_cons _ _).trans (List.suffix_append _ _)).isInfix

end Vetting.Text
