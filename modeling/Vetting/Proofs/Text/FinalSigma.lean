import Vetting.Proofs.Text.Categories
import Vetting.Proofs.Text.Lowering

/-! The final sigma. A capital sigma is lower-cased by what stands around it, every other character by
itself. So a part of a text is lower-cased as it is when it stands alone exactly when its capital
sigmas end words in both places or in neither. Those that may differ are at the edges: with nothing
but skipped characters before them, unless a cased one follows, or with a cased one before them and
nothing but skipped ones behind. The case of a letter of ASCII changes nothing for a sigma around it,
so texts that differ in nothing else are lower-cased to the same one.
-/

namespace Vetting.Text

variable {before after text : List Char}

-----------------------------------------------------------------------------------------
-- Parts of a text
-----------------------------------------------------------------------------------------

/-- What a character is lower-cased to between two texts; the one before it is given last character
first.
-/
def lowerAt (before : List Char) (c : Char) (after : List Char) : List Char :=
  if c == 'Σ' then [if sigmaIsFinal before after then 'ς' else 'σ']
  else if c == 'İ' then ['i', '\u0307']
  else [toLower c]

/-- What a part of a text is lower-cased to. -/
def lowerBetween : List Char → List Char → List Char → List Char
  | _, [], _ => []
  | before, c :: rest, after => lowerAt before c (rest ++ after) ++ lowerBetween (c :: before) rest after

/-- The capital sigmas of a part of a text end words there when they do so where it stands alone. -/
def ReadsAlike (before text after : List Char) : Prop :=
  ∀ front back,
    text = front ++ 'Σ' :: back
    → sigmaIsFinal (front.reverse ++ before) (back ++ after) = sigmaIsFinal front.reverse back

/-- A text is lower-cased part by part, by induction on the first one. -/
theorem lowerFrom_append (before text after : List Char)
    : lowerFrom before (text ++ after)
      = lowerBetween before text after ++ lowerFrom (text.reverse ++ before) after := by
  induction text generalizing before with
  | nil => rfl
  | cons c rest ih =>
      have onward := ih (c :: before)
      rw [List.cons_append, lowerBetween, List.append_assoc, List.reverse_cons, List.append_assoc,
        List.singleton_append, ← onward]
      rfl

theorem lowerBetween_nil (before text : List Char)
    : lowerBetween before text [] = lowerFrom before text := by
  have whole := lowerFrom_append before text []
  rw [List.append_nil, lowerFrom, List.append_nil] at whole
  exact whole.symm

theorem length_lowerAt (before after other behind : List Char) (c : Char)
    : (lowerAt before c after).length = (lowerAt other c behind).length := by
  unfold lowerAt
  split <;> rfl

/-- The length of a lower-case part has nothing to do with what stands around it, by induction on it.
-/
theorem length_lowerBetween (text before after other behind : List Char)
    : (lowerBetween before text after).length = (lowerBetween other text behind).length := by
  induction text generalizing before other with
  | nil => rfl
  | cons c rest ih =>
      rw [lowerBetween, lowerBetween, List.length_append, List.length_append,
        length_lowerAt before _ other (rest ++ behind), ih (c :: before) (c :: other)]

theorem lowerAt_eq_iff {other behind : List Char} {c : Char}
    : lowerAt before c after = lowerAt other c behind
      ↔ (c = 'Σ' → sigmaIsFinal before after = sigmaIsFinal other behind) := by
  unfold lowerAt
  by_cases sigma : c = 'Σ'
  · subst sigma
    cases sigmaIsFinal before after <;> cases sigmaIsFinal other behind <;> simp
  · simp [sigma]

/-- A part is lower-cased alike in two places exactly when its capital sigmas end words in both or in
neither, by induction on it.
-/
theorem lowerBetween_eq_iff {other behind : List Char}
    : lowerBetween before text after = lowerBetween other text behind
      ↔ ∀ front back,
          text = front ++ 'Σ' :: back
          → sigmaIsFinal (front.reverse ++ before) (back ++ after)
            = sigmaIsFinal (front.reverse ++ other) (back ++ behind) := by
  induction text generalizing before other with
  | nil => simp [lowerBetween]
  | cons c rest ih =>
      have apart
          : lowerBetween before (c :: rest) after = lowerBetween other (c :: rest) behind
            ↔ lowerAt before c (rest ++ after) = lowerAt other c (rest ++ behind)
              ∧ lowerBetween (c :: before) rest after = lowerBetween (c :: other) rest behind :=
        List.append_eq_append_iff_of_size_eq_left (length_lowerAt before _ other _ c)
      rw [apart, lowerAt_eq_iff, ih]
      constructor
      · rintro ⟨here, onward⟩ front back same
        cases front with
        | nil =>
            obtain ⟨rfl, rfl⟩ := List.cons.inj same
            exact here rfl
        | cons first more =>
            obtain ⟨rfl, rfl⟩ := List.cons.inj same
            simpa using onward more back rfl
      · intro all
        refine ⟨?_, ?_⟩
        · rintro rfl
          exact all [] rest rfl
        · rintro front back rfl
          simpa using all (c :: front) back rfl

theorem lowerBetween_eq_lower_iff
    : lowerBetween before text after = lower text ↔ ReadsAlike before text after := by
  rw [lower, ← lowerBetween_nil, lowerBetween_eq_iff]
  simp only [ReadsAlike, List.append_nil]

/-- Where it reads alike, the beginning of a text is lower-cased as it is alone. -/
theorem ReadsAlike.prefix_lower (alike : ReadsAlike [] text after)
    : lower text <+: lower (text ++ after) := by
  have whole := lowerFrom_append [] text after
  rw [lowerBetween_eq_lower_iff.mpr alike] at whole
  exact ⟨_, whole.symm⟩

/-- Where it reads alike, a part stands in the lower-case text as it is lower-cased alone. -/
theorem ReadsAlike.infix_lower {front back : List Char} (alike : ReadsAlike front.reverse text back)
    : lower text <:+: lower (front ++ text ++ back) := by
  rw [lower, lower, List.append_assoc, lowerFrom_append, List.append_nil, lowerFrom_append,
    lowerBetween_eq_lower_iff.mpr alike]
  exact (List.prefix_append _ _).isInfix.trans (List.suffix_append _ _).isInfix

-----------------------------------------------------------------------------------------
-- Edges
-----------------------------------------------------------------------------------------

/-- Whether the first character that is not skipped is cased. -/
def startsCased (text : List Char) : Bool :=
  ((text.dropWhile isCaseIgnorable).head?.map isCased).getD false

theorem sigmaIsFinal_eq (before after : List Char)
    : sigmaIsFinal before after = (startsCased before && !startsCased after) :=
  rfl

/-- What comes behind a text counts when all of the text is skipped, by induction on it. -/
theorem startsCased_append (near far : List Char)
    : startsCased (near ++ far)
      = if near.all isCaseIgnorable then startsCased far else startsCased near := by
  induction near with
  | nil => rfl
  | cons c rest ih =>
      unfold startsCased at ih ⊢
      cases skipped : isCaseIgnorable c with
      | true => simp [skipped, ih]
      | false => simp [skipped]

theorem startsCased_of_skipped (skipped : text.all isCaseIgnorable = true)
    : startsCased text = false := by
  have whole := startsCased_append text []
  rwa [List.append_nil, if_pos skipped] at whole

/-- A letter of ASCII is not skipped, and is cased. -/
theorem startsCased_letter {c : Char} (letter : c.isAlpha = true) (rest : List Char)
    : startsCased (c :: rest) = true := by
  have stays : isCaseIgnorable c = false := by
    rcases isAlpha_iff.mp letter with ⟨low, high⟩ | ⟨low, high⟩
    · exact isCaseIgnorable_capitalLetter low high
    · exact isCaseIgnorable_smallLetter low high
  have small : c.toNat < 128 := by
    have range := isAlpha_iff.mp letter
    omega
  simp [startsCased, stays, isCased, small, letter]

theorem startsCased_smallLetter {c : Char} (low : 97 ≤ c.toNat) (high : c.toNat ≤ 122)
    (rest : List Char)
    : startsCased (c :: rest) = true :=
  startsCased_letter (isAlpha_iff.mpr (.inr ⟨low, high⟩)) rest

-----------------------------------------------------------------------------------------
-- Letter case
-----------------------------------------------------------------------------------------

/-- The same text but for the case of its letters of ASCII. -/
def SameLetters (text other : List Char) : Prop :=
  text.map Char.toLower = other.map Char.toLower

instance : DecidableRel SameLetters :=
  fun text other => inferInstanceAs (Decidable (text.map Char.toLower = other.map Char.toLower))

theorem SameLetters.refl (text : List Char) : SameLetters text text :=
  rfl

theorem sameLetters_cons_iff {c d : Char} {rest others : List Char}
    : SameLetters (c :: rest) (d :: others) ↔ c.toLower = d.toLower ∧ SameLetters rest others := by
  rw [SameLetters, List.map_cons, List.map_cons, List.cons.injEq, SameLetters]

/-- By induction on the text, up to the first character that is not skipped. -/
theorem SameLetters.startsCased_eq {other : List Char} (same : SameLetters text other)
    : startsCased text = startsCased other := by
  induction text generalizing other with
  | nil =>
      obtain rfl := List.map_eq_nil_iff.mp same.symm
      rfl
  | cons c rest ih =>
      cases other with
      | nil => cases same
      | cons d others =>
          obtain ⟨here, onward⟩ := sameLetters_cons_iff.mp same
          rcases eq_or_isAlpha here with rfl | ⟨letter, letter'⟩
          · rw [← List.singleton_append, startsCased_append, ih onward, ← startsCased_append]
            rfl
          · rw [startsCased_letter letter, startsCased_letter letter']

/-- By induction on the text: a letter is mapped to the small one, and what stands around any other
character differs in letters only.
-/
theorem SameLetters.lowerFrom_eq {other before before' : List Char} (same : SameLetters text other)
    (passed : SameLetters before before')
    : lowerFrom before text = lowerFrom before' other := by
  induction text generalizing other before before' with
  | nil =>
      obtain rfl := List.map_eq_nil_iff.mp same.symm
      rfl
  | cons c rest ih =>
      cases other with
      | nil => cases same
      | cons d others =>
          obtain ⟨here, onward⟩ := sameLetters_cons_iff.mp same
          have later := ih onward (sameLetters_cons_iff.mpr ⟨here, passed⟩)
          rcases eq_or_isAlpha here with rfl | ⟨letter, letter'⟩
          · rw [lowerFrom, lowerFrom, sigmaIsFinal_eq, sigmaIsFinal_eq, passed.startsCased_eq,
              onward.startsCased_eq, later]
          · have small := isAlpha_iff.mp letter
            have small' := isAlpha_iff.mp letter'
            rw [lowerFrom_cons (by omega), lowerFrom_cons (by omega), here, later]

theorem SameLetters.lower_eq {other : List Char} (same : SameLetters text other)
    : lower text = lower other :=
  same.lowerFrom_eq (.refl [])

-----------------------------------------------------------------------------------------
-- Open edges
-----------------------------------------------------------------------------------------

/-- A capital sigma with nothing but skipped characters before it, and no cased one next. -/
def HasOpenStart (text : List Char) : Prop :=
  ∃ front back,
    text = front ++ 'Σ' :: back
    ∧ front.all isCaseIgnorable = true
    ∧ startsCased back = false

/-- A capital sigma with a cased character before it, and nothing but skipped ones behind. -/
def HasOpenEnd (text : List Char) : Prop :=
  ∃ front back,
    text = front ++ 'Σ' :: back
    ∧ startsCased front.reverse = true
    ∧ back.all isCaseIgnorable = true

theorem not_hasOpenStart_cons {first : Char} (stays : isCaseIgnorable first = false)
    (other : first ≠ 'Σ') (rest : List Char)
    : ¬ HasOpenStart (first :: rest) := by
  rintro ⟨front, back, same, skipped, _⟩
  cases front with
  | nil => exact other (List.cons.inj same).1
  | cons c more =>
      obtain ⟨rfl, _⟩ := List.cons.inj same
      simp [stays] at skipped

theorem not_hasOpenEnd_concat {last : Char} (stays : isCaseIgnorable last = false)
    (other : last ≠ 'Σ') (start : List Char)
    : ¬ HasOpenEnd (start ++ [last]) := by
  rintro ⟨front, back, same, _, skipped⟩
  rcases List.eq_nil_or_concat back with rfl | ⟨more, c, rfl⟩
  · exact other (List.singleton_inj.mp (List.append_inj_right' same rfl))
  · rw [List.concat_eq_append, ← List.cons_append, ← List.append_assoc] at same
    obtain rfl := List.singleton_inj.mp (List.append_inj_right' same rfl)
    simp [stays] at skipped

/-- A text whose edges are not open is lower-cased alike everywhere. -/
theorem readsAlike_of_closed (noStart : ¬ HasOpenStart text) (noEnd : ¬ HasOpenEnd text)
    (before after : List Char)
    : ReadsAlike before text after := by
  rintro front back rfl
  rw [sigmaIsFinal_eq, sigmaIsFinal_eq, startsCased_append, startsCased_append, List.all_reverse]
  by_cases skippedFront : front.all isCaseIgnorable = true
  · have cased : startsCased back = true := by
      rw [← Bool.not_eq_false]
      exact fun uncased => noStart ⟨front, back, rfl, skippedFront, uncased⟩
    have stays : ¬ back.all isCaseIgnorable = true := by
      intro skipped
      rw [startsCased_of_skipped skipped] at cased
      cases cased
    rw [if_neg stays, cased, Bool.not_true, Bool.and_false, Bool.and_false]
  · rw [if_neg skippedFront]
    by_cases cased : startsCased front.reverse = true
    · have stays : ¬ back.all isCaseIgnorable = true :=
        fun skipped => noEnd ⟨front, back, rfl, cased, skipped⟩
      rw [if_neg stays]
    · simp [cased]

/-- A text that starts another is lower-cased alike there when its end is not open. -/
theorem readsAlike_of_closedEnd (noEnd : ¬ HasOpenEnd text) (after : List Char)
    : ReadsAlike [] text after := by
  rintro front back rfl
  rw [List.append_nil, sigmaIsFinal_eq, sigmaIsFinal_eq, startsCased_append]
  by_cases cased : startsCased front.reverse = true
  · have stays : ¬ back.all isCaseIgnorable = true :=
      fun skipped => noEnd ⟨front, back, rfl, cased, skipped⟩
    rw [if_neg stays]
  · simp [cased]

variable {c : Char}

theorem HasOpenStart.not_readsAlike (isOpen : HasOpenStart text) (cased : startsCased [c] = true)
    : ¬ ReadsAlike [c] text [] := by
  obtain ⟨front, back, same, skipped, uncased⟩ := isOpen
  intro alike
  have reads := alike front back same
  rw [← List.all_reverse] at skipped
  rw [sigmaIsFinal_eq, sigmaIsFinal_eq, startsCased_append, if_pos skipped, cased,
    startsCased_of_skipped skipped, List.append_nil, uncased] at reads
  cases reads

theorem HasOpenEnd.not_readsAlike (isOpen : HasOpenEnd text) (cased : startsCased [c] = true)
    : ¬ ReadsAlike [] text [c] := by
  obtain ⟨front, back, same, starts, skipped⟩ := isOpen
  intro alike
  have reads := alike front back same
  rw [sigmaIsFinal_eq, sigmaIsFinal_eq, startsCased_append back, if_pos skipped, cased,
    List.append_nil, starts, startsCased_of_skipped skipped] at reads
  cases reads

-----------------------------------------------------------------------------------------
-- Missed occurrences
-----------------------------------------------------------------------------------------

/-- Of a text that is longer by one character, another one can only be the start. -/
theorem head?_of_infix_cons {α : Type} {x y : List α} {c : α} (length : x.length = y.length)
    (other : x ≠ y) (stands : x <:+: c :: y)
    : x.head? = some c := by
  rcases List.infix_cons_iff.mp stands with starts | behind
  · cases x with
    | nil => exact absurd (List.eq_nil_of_length_eq_zero length.symm).symm other
    | cons first rest =>
        obtain ⟨rfl, _⟩ := List.cons_prefix_cons.mp starts
        rfl
  · exact absurd (behind.eq_of_length length) other

theorem getLast?_of_infix_concat {α : Type} {x y : List α} {c : α} (length : x.length = y.length)
    (other : x ≠ y) (stands : x <:+: y ++ [c])
    : x.getLast? = some c := by
  rw [← List.head?_reverse]
  refine head?_of_infix_cons (y := y.reverse) (by simpa using length) (by simpa using other) ?_
  rwa [← List.reverse_concat, List.reverse_infix]

theorem exists_smallLetter (met : Option Char)
    : ∃ c : Char, c.toLower = c ∧ c.toNat < 128 ∧ startsCased [c] = true ∧ met ≠ some c := by
  by_cases first : met = some 'a'
  · refine ⟨'b', by decide, by decide, startsCased_smallLetter (by decide) (by decide) [], ?_⟩
    rw [first]
    decide
  · exact ⟨'a', by decide, by decide, startsCased_smallLetter (by decide) (by decide) [], first⟩

/-- A text with an open start is lost behind some letter. -/
theorem HasOpenStart.exists_missed (isOpen : HasOpenStart text)
    : ∃ c, ¬ lower text <:+: lower (c :: text) := by
  obtain ⟨c, own, small, cased, other⟩ := exists_smallLetter (lower text).head?
  have differs := mt lowerBetween_eq_lower_iff.mp (isOpen.not_readsAlike cased)
  have length : (lower text).length = (lowerBetween [c] text []).length := by
    rw [lower, ← lowerBetween_nil]
    exact length_lowerBetween ..
  have lowered : lower (c :: text) = c :: lowerBetween [c] text [] := by
    rw [lower, lowerFrom_cons small, own, lowerBetween_nil]
  refine ⟨c, fun stands => other ?_⟩
  rw [lowered] at stands
  exact head?_of_infix_cons length (Ne.symm differs) stands

/-- A text with an open end is lost before some letter. -/
theorem HasOpenEnd.exists_missed (isOpen : HasOpenEnd text)
    : ∃ c, ¬ lower text <:+: lower (text ++ [c]) := by
  obtain ⟨c, own, small, cased, other⟩ := exists_smallLetter (lower text).getLast?
  have differs := mt lowerBetween_eq_lower_iff.mp (isOpen.not_readsAlike cased)
  have length : (lower text).length = (lowerBetween [] text [c]).length := by
    rw [lower, ← lowerBetween_nil]
    exact length_lowerBetween ..
  have lowered : lower (text ++ [c]) = lowerBetween [] text [c] ++ [c] := by
    rw [lower, lowerFrom_append, lowerFrom_cons small, own, lowerFrom]
  refine ⟨c, fun stands => other ?_⟩
  rw [lowered] at stands
  exact getLast?_of_infix_concat length (Ne.symm differs) stands

end Vetting.Text
