import Vetting.Proofs.Text.Categories
import Vetting.Proofs.Tool.Stubs

/-! Names that do not resolve. A report of one is looked for by its phrase, in any letter case, at the
leftmost place where that stands, and the name is the whole word behind it. So a name is excused when it
is one of the platform, and not when it only starts with one or differs from one in letter case. The
word for an error stands before the phrase, and the phrase may begin before that word: then it borrows
its last letter from it, and what is read for the name are the other letters.
-/

namespace Vetting

open Text

-----------------------------------------------------------------------------------------
-- The phrase
-----------------------------------------------------------------------------------------

/-- A word stands in a text, but for characters that fold to the same one. -/
def OccursFolded (text word : List Char) : Prop :=
  word.map foldCase <:+: text.map foldCase

instance (text word : List Char) : Decidable (OccursFolded text word) :=
  inferInstanceAs (Decidable (_ <:+: _))

/-- The phrase that a report has before the name. -/
def unresolvedPhrase : List Char := "unresolved reference".toList

/-- The phrase without its last letter. -/
def begunPhrase : List Char := unresolvedPhrase.dropLast

theorem unresolvedPhrase_unbordered : Unbordered (unresolvedPhrase.map foldCase) := by
  decide +kernel

/-- Only its last letter is a beginning of the word for an error. -/
theorem unresolvedPhrase_overlap
    : ∀ k < (unresolvedPhrase.map foldCase).length,
        (unresolvedPhrase.map foldCase).drop k <+: "error: ".toList.map foldCase
        → k = begunPhrase.length := by
  decide +kernel

variable {letters line front spelling rest : List Char}

/-- A word is matched by what folds to the same, by induction on the word. -/
theorem run_folded_eq_some {β : Type} {next : Pattern.Continuation β} {p : Pattern.Progress}
    {answer : β}
    : Pattern.run (.sequence (letters.map fun c => .one fun d => foldCase d == foldCase c)) next p
          = some answer
      ↔ ∃ taken rest,
          p.rest = taken ++ rest
          ∧ taken.map foldCase = letters.map foldCase
          ∧ next ⟨taken.getLast?.or p.before, rest, p.groups⟩ = some answer := by
  induction letters generalizing p with
  | nil => simp [Pattern.sequence, Pattern.run]
  | cons c more ih =>
      rw [List.map_cons, Pattern.run_sequence_cons, Pattern.run_one_eq_some]
      simp only [ih, beq_iff_eq, List.map_cons]
      constructor
      · rintro ⟨d, _, whole, here, taken, rest, rfl, others, onward⟩
        exact ⟨d :: taken, rest, whole, by simp [here, others],
          by rwa [Pattern.getLast?_cons_or]⟩
      · rintro ⟨taken, rest, whole, same, onward⟩
        obtain ⟨d, taken, rfl, here, others⟩ := List.map_eq_cons_iff.mp same
        rw [Pattern.getLast?_cons_or] at onward
        exact ⟨d, taken ++ rest, whole, here, taken, rest, rfl, others, onward⟩

/-- A report starts only where the phrase does. -/
theorem matchAt?_unresolved_none {before : Option Char}
    (other : ¬ unresolvedPhrase.map foldCase <+: line.map foldCase)
    : unresolvedPattern.matchAt? before line = none := by
  rw [Option.eq_none_iff_forall_ne_some]
  intro found starts
  rw [Pattern.matchAt?, unresolvedPattern, Pattern.run_sequence_cons, anyCaseWord] at starts
  obtain ⟨taken, rest, rfl, same, _⟩ := run_folded_eq_some.mp starts
  refine other ?_
  rw [List.map_append, same]
  exact List.prefix_append _ _

/-- Behind a text without the phrase, the leftmost place where it stands is right there: a copy of it
that began earlier would overlap it.
-/
theorem search?_phrase (fresh : ¬ OccursFolded front unresolvedPhrase)
    (spelled : spelling.map foldCase = unresolvedPhrase.map foldCase) (before : Option Char)
    : ∃ last,
        unresolvedPattern.search? before (front ++ (spelling ++ rest))
          = unresolvedPattern.search? last (spelling ++ rest) := by
  refine Pattern.search?_append (fun start some ends before => matchAt?_unresolved_none ?_) before
  rw [List.map_append, List.map_append, spelled]
  have within : start.map foldCase <:+: front.map foldCase := (ends.map foldCase).isInfix
  exact unresolvedPhrase_unbordered.not_prefix (mt List.map_eq_nil_iff.mp some)
    (fun stands => fresh (stands.trans within)) _

/-- Where the phrase stands before the word for an error but not before its first letter, what it has
before that letter is the phrase without its last one.
-/
theorem begunPhrase_of_occursFolded (fresh : ¬ OccursFolded front unresolvedPhrase)
    (stands : OccursFolded (front ++ "error: ".toList) unresolvedPhrase)
    : begunPhrase.map foldCase <:+ front.map foldCase := by
  rw [OccursFolded, List.map_append] at stands
  rcases List.infix_append_iff.mp stands with inFront | inWord | ⟨begun, ended, split, ends, starts⟩
  · exact absurd inFront fresh
  · exact absurd inWord (by decide +kernel)
  · by_cases none : ended = []
    · rw [none, List.append_nil] at split
      exact absurd (split ▸ ends.isInfix : unresolvedPhrase.map foldCase <:+: _) fresh
    · -- Only the last letter of the phrase is a beginning of the word.
      have place := length_eq_of_overlap unresolvedPhrase_overlap split none starts
      have whole : begunPhrase.map foldCase
          = (unresolvedPhrase.map foldCase).take begunPhrase.length := by
        decide +kernel
      rwa [whole, ← place, split, List.take_left]

-----------------------------------------------------------------------------------------
-- The name
-----------------------------------------------------------------------------------------

/-- A text begins with a name: a colon, blanks and a quote may come before it, and it is a whole word. -/
inductive Names : List Char → List Char → Prop where
  | intro (colon blanks quote name rest : List Char) (oneColon : colon = [] ∨ colon = [':'])
      (blank : ∀ c ∈ blanks, isBlank c = true) (oneQuote : quote = [] ∨ quote = ['\''])
      (some : name ≠ []) (word : ∀ c ∈ name, isWordChar c = true)
      (ends : ∀ c ∈ rest.head?, isWordChar c = false)
      : Names (colon ++ (blanks ++ (quote ++ (name ++ rest)))) name

variable {later name : List Char}

/-- The name is matched as a whole. -/
theorem Names.run_eq_some (names : Names later name) (before : Option Char)
    (groups : List (Nat × List Char))
    : ∃ last rest,
        Pattern.run
            (.sequence [.optional (.char ':'), .maybeGap, .optional (.char '\''), .group 1 .name])
            some ⟨before, later, groups⟩
          = some ⟨last, rest, (1, name) :: groups⟩ := by
  obtain ⟨colon, blanks, quote, name, rest, oneColon, blank, oneQuote, nonempty, word, ends⟩ := names
  have first : ∀ c ∈ (name ++ rest).head?, isWordChar c = true := by
    rw [List.head?_append_of_ne_nil _ nonempty]
    exact fun c head => word c (List.mem_of_head? head)
  have noQuote : quote = [] → (name ++ rest).head? ≠ some '\'' := fun _ head =>
    absurd (first _ head) (by decide)
  have noBlank : ∀ c ∈ (quote ++ (name ++ rest)).head?, isBlank c = false := by
    rcases oneQuote with rfl | rfl
    · intro c head
      rw [← Bool.not_eq_true]
      intro blank
      exact absurd (first c head) (by simp [isWordChar_of_isBlank blank])
    · simp [isBlank]
  have noColon : colon = [] → (blanks ++ (quote ++ (name ++ rest))).head? ≠ some ':' := by
    intro _ head
    rcases blanks with _ | ⟨c, _⟩
    · rcases oneQuote with rfl | rfl
      · exact absurd (first _ head) (by decide)
      · simp at head
    · obtain rfl : c = ':' := by simpa using head
      exact absurd (blank ':' List.mem_cons_self) (by decide)
  refine ⟨name.getLast?.or (quote.getLast?.or (blanks.getLast?.or (colon.getLast?.or before))),
    rest, ?_⟩
  rw [Pattern.run_sequence_cons, Pattern.run_sequence_cons, Pattern.run_sequence_cons]
  refine Pattern.run_optional_of_next oneColon noColon ?_
  refine Pattern.run_zeroOrMore_of_next blank noBlank ?_
  refine Pattern.run_optional_of_next oneQuote noQuote ?_
  exact Pattern.run_oneOrMore_of_next nonempty word ends (by simp)

/-- A line whose first phrase has a name behind it is about the platform when that is one of its names.
-/
theorem aboutPlatform_eq (fresh : ¬ OccursFolded front unresolvedPhrase)
    (spelled : spelling.map foldCase = unresolvedPhrase.map foldCase) (names : Names later name)
    : aboutPlatform (front ++ (spelling ++ later)) = platformNames.contains (String.ofList name) := by
  obtain ⟨before, onward⟩ := search?_phrase fresh spelled none
  obtain ⟨last, rest, named⟩ := names.run_eq_some (spelling.getLast?.or before) []
  have starts
      : unresolvedPattern.matchAt? before (spelling ++ later) = some ⟨last, rest, [(1, name)]⟩ :=
    run_folded_eq_some.mpr ⟨spelling, later, rfl, spelled, named⟩
  rw [aboutPlatform, Pattern.first?, onward, Pattern.search?_of_matchAt? starts]
  rfl

/-- A line without the phrase is not about the platform. -/
theorem aboutPlatform_of_fresh (fresh : ¬ OccursFolded line unresolvedPhrase)
    : aboutPlatform line = false := by
  have nowhere : ∀ start, start <:+ line → ∀ before,
      unresolvedPattern.matchAt? before start = none := fun start ends before =>
    matchAt?_unresolved_none fun starts =>
      fresh (starts.isInfix.trans (ends.map foldCase).isInfix)
  rw [aboutPlatform, Pattern.first?, Pattern.search?_none nowhere]
  rfl

-----------------------------------------------------------------------------------------
-- What is left of the errors
-----------------------------------------------------------------------------------------

/-- An error about a name that does not resolve, as a compiler prints it behind the place that it is
reported for: the name stands behind the phrase and a blank, which a colon may come before and a quote
behind.
-/
structure Unresolved where
  place : List Char
  phrase : List Char
  colon : Bool
  quoted : Bool
  name : List Char
  rest : List Char

namespace Unresolved

/-- What stands between the phrase and the name. -/
def separator (report : Unresolved) : List Char :=
  (if report.colon then [':'] else []) ++ ' ' :: (if report.quoted then ['\''] else [])

/-- The line that is printed. -/
def text (report : Unresolved) : List Char :=
  report.place ++ "error: ".toList ++ report.phrase ++ report.separator ++ report.name ++ report.rest

/-- The phrase stands behind the place, in any letter case, and not in it, and the name is a whole word.
-/
structure IsPlain (report : Unresolved) : Prop where
  fresh : ¬ OccursFolded report.place unresolvedPhrase
  spelled : report.phrase.map foldCase = unresolvedPhrase.map foldCase
  named : report.name ≠ []
  word : ∀ c ∈ report.name, isWordChar c = true
  ends : ∀ c ∈ report.rest.head?, isWordChar c = false

/-- The place ends with all of the phrase but its last letter, which the word for an error begins with.
-/
def borrows (report : Unresolved) : Bool :=
  decide (begunPhrase.map foldCase <:+ report.place.map foldCase)

/-- The name is one of the platform. -/
def isOfPlatform (report : Unresolved) : Bool :=
  platformNames.contains (String.ofList report.name)

variable {report : Unresolved}

theorem borrows_iff
    : report.borrows = true ↔ begunPhrase.map foldCase <:+ report.place.map foldCase := by
  rw [borrows, decide_eq_true_iff]

/-- With a letter borrowed, the word behind the phrase is what is left of that for an error. -/
theorem IsPlain.aboutPlatform_of_borrows (plain : report.IsPlain) (borrowed : report.borrows = true)
    : aboutPlatform report.text = false := by
  obtain ⟨_, same⟩ := borrows_iff.mp borrowed
  obtain ⟨before, begun, split, _, begins⟩ := List.map_eq_append_iff.mp same.symm
  have fresh : ¬ OccursFolded before unresolvedPhrase := by
    intro stands
    refine plain.fresh (stands.trans ?_)
    rw [split, List.map_append]
    exact (List.prefix_append _ _).isInfix
  have spelled : (begun ++ ['e']).map foldCase = unresolvedPhrase.map foldCase := by
    rw [List.map_append, begins]
    decide +kernel
  have word : ∀ c ∈ "rror".toList, isWordChar c = true := List.all_eq_true.mp (by decide)
  have ends (rest : List Char) : ∀ c ∈ (':' :: rest).head?, isWordChar c = false := by
    rintro _ ⟨⟩
    decide
  have names (rest : List Char) : Names ("rror".toList ++ ':' :: rest) "rror".toList :=
    .intro [] [] [] _ _ (.inl rfl) (by simp) (.inl rfl) (by decide) word (ends rest)
  have read : report.text
      = before ++ ((begun ++ ['e']) ++ ("rror".toList ++ ':' :: ' ' ::
        (report.phrase ++ (report.separator ++ (report.name ++ report.rest))))) := by
    rw [text, split, show "error: ".toList = 'e' :: ("rror".toList ++ [':', ' ']) by rfl]
    simp
  rw [read, aboutPlatform_eq fresh spelled (names _)]
  decide +kernel

/-- Otherwise the word behind the phrase is the name. -/
theorem IsPlain.aboutPlatform_of_not_borrows (plain : report.IsPlain)
    (apart : report.borrows = false)
    : aboutPlatform report.text = report.isOfPlatform := by
  have fresh : ¬ OccursFolded (report.place ++ "error: ".toList) unresolvedPhrase := by
    intro stands
    have borrowed := borrows_iff.mpr (begunPhrase_of_occursFolded plain.fresh stands)
    rw [apart] at borrowed
    exact absurd borrowed (by decide)
  have blank : ∀ c ∈ [' '], isBlank c = true := List.forall_mem_singleton.mpr (by decide)
  have names : Names (report.separator ++ (report.name ++ report.rest)) report.name := by
    rw [separator, List.append_assoc, ← List.singleton_append (x := ' '), List.append_assoc]
    refine .intro _ _ _ _ _ ?_ blank ?_ plain.named plain.word plain.ends
    · cases report.colon <;> simp
    · cases report.quoted <;> simp
  have read : report.text
      = (report.place ++ "error: ".toList) ++ (report.phrase ++ (report.separator
        ++ (report.name ++ report.rest))) := by
    simp [text]
  rw [isOfPlatform, read, aboutPlatform_eq fresh plain.spelled names]

theorem hasAnyCase_text (report : Unresolved) : hasAnyCase report.text "error:" = true := by
  refine hasAnyCase_error_iff.mpr ⟨"error:".toList, ?_, rfl⟩
  refine ⟨report.place, ' ' :: (report.phrase ++ report.separator ++ report.name ++ report.rest), ?_⟩
  rw [text, show "error: ".toList = "error:".toList ++ [' '] by rfl]
  simp

end Unresolved

/-- A line of what a Kotlin compiler prints to its error stream: an error about a name that does not
resolve, another error, or another text.
-/
inductive KotlinLine where
  | unresolved (report : Unresolved)
  | error (text : List Char)
  | other (text : List Char)

namespace KotlinLine

/-- The line itself. -/
def text : KotlinLine → List Char
  | unresolved report => report.text
  | error text | other text => text

/-- Reports are plain, other errors have the word for one and not the phrase, and nothing else has that
word in it, in any letter case.
-/
def IsPlain : KotlinLine → Prop
  | unresolved report => report.IsPlain
  | error text => OccursAnyCase text "error:".toList ∧ ¬ OccursFolded text unresolvedPhrase
  | other text => ¬ OccursAnyCase text "error:".toList

/-- Whether a line is an error that is not excused. -/
def isKept : KotlinLine → Bool
  | unresolved report => report.borrows || !report.isOfPlatform
  | error _ => true
  | other _ => false

theorem IsPlain.counts {line : KotlinLine} (plain : line.IsPlain)
    : (!aboutPlatform line.text && hasAnyCase line.text "error:") = line.isKept := by
  cases line with
  | unresolved report =>
      rw [text, report.hasAnyCase_text, Bool.and_true, isKept]
      cases borrowed : report.borrows with
      | true => rw [Unresolved.IsPlain.aboutPlatform_of_borrows plain borrowed]; rfl
      | false => rw [Unresolved.IsPlain.aboutPlatform_of_not_borrows plain borrowed, Bool.false_or]
  | error text =>
      obtain ⟨named, fresh⟩ := plain
      rw [KotlinLine.text, aboutPlatform_of_fresh fresh, hasAnyCase_error_iff.mpr named]
      rfl
  | other text =>
      rw [KotlinLine.text, hasAnyCase_error_eq_false plain, Bool.and_false, isKept]

end KotlinLine

theorem kotlinErrors_eq {stderr : List Char} {printed : List KotlinLine}
    (shown : lines stderr = printed.map KotlinLine.text) (plain : ∀ line ∈ printed, line.IsPlain)
    : kotlinErrors stderr
      = (printed.filter KotlinLine.isKept).map fun line => String.ofList line.text :=
  filter_errorLines_eq shown fun line member => (plain line member).counts

namespace Checker

variable {R : Type} [Scale R]

/-- Of what a Kotlin compiler prints, all errors are kept, as they are and in their order, but for those
about a name that is, as a whole and letter by letter, one of the platform. Where a place ends with the
phrase but for its last letter, its error is kept too. A source is accepted when nothing is kept.
-/
theorem platform_names_excused (output : ToolOutput) (printed : List KotlinLine)
    (shown : lines output.stderr = printed.map KotlinLine.text)
    (plain : ∀ line ∈ printed, line.IsPlain)
    : kotlinErrors output.stderr
        = (printed.filter KotlinLine.isKept).map (fun line => String.ofList line.text)
      ∧ ((kotlinc.interpret output : Verdict R).ok = true
        ↔ ∀ line ∈ printed, line.isKept = false) := by
  have kept := kotlinErrors_eq shown plain
  refine ⟨kept, ?_⟩
  rw [interpret_ok_iff (.inr rfl), ← kotlinErrors_eq_nil, kept]
  simp [List.filter_eq_nil_iff]

/-- What a compiler prints about a name of the platform, about one that only starts with it and one in
other letter case, with an error of another kind and a warning.
-/
def likeNames : List KotlinLine :=
  [.unresolved ⟨"A.kt:3:8: ".toList, "unresolved reference".toList, true, false, "Car".toList, []⟩,
    .unresolved
      ⟨"A.kt:4:1: ".toList, "Unresolved Reference".toList, false, true, "CarAudio".toList,
        "'.".toList⟩,
    .error "A.kt:5:1: error: expecting '\x7d'".toList,
    .unresolved ⟨"A.kt:6:2: ".toList, "unresolved reference".toList, false, false, "car".toList, []⟩,
    .other "warning: unresolved reference: Car".toList]

theorem likeNames_plain : ∀ line ∈ likeNames, line.IsPlain := by
  simp only [likeNames, List.forall_mem_cons]
  refine ⟨?_, ?_, ⟨?_, ?_⟩, ?_, ?_, by simp⟩
  · exact ⟨by decide +kernel, rfl, by decide, List.all_eq_true.mp (by decide), by simp⟩
  · exact ⟨by decide +kernel, by decide +kernel, by decide, List.all_eq_true.mp (by decide),
      by simp; decide⟩
  · exact hasAnyCase_error_iff.mp (by decide +kernel)
  · decide +kernel
  · exact ⟨by decide +kernel, rfl, by decide, List.all_eq_true.mp (by decide), by simp⟩
  · exact fun named => absurd (hasAnyCase_error_iff.mpr named) (by decide +kernel)

theorem platform_names_excused_likeNames
    : ∃ output : ToolOutput,
        lines output.stderr = likeNames.map KotlinLine.text
        ∧ (∀ line ∈ likeNames, line.IsPlain)
        ∧ kotlinErrors output.stderr
          = ["A.kt:4:1: error: Unresolved Reference 'CarAudio'.",
              "A.kt:5:1: error: expecting '\x7d'", "A.kt:6:2: error: unresolved reference car"]
        ∧ (kotlinc.interpret output : Verdict Exact).ok = false := by
  let output : ToolOutput :=
    ⟨1, [], "A.kt:3:8: error: unresolved reference: Car\r\n".toList
      ++ "A.kt:4:1: error: Unresolved Reference 'CarAudio'.\n".toList
      ++ "A.kt:5:1: error: expecting '\x7d'\nA.kt:6:2: error: unresolved reference car\n".toList
      ++ "warning: unresolved reference: Car".toList⟩
  have shown : lines output.stderr = likeNames.map KotlinLine.text := by decide +kernel
  obtain ⟨kept, accepted⟩ :=
    platform_names_excused (R := Exact) output likeNames shown likeNames_plain
  refine ⟨output, shown, likeNames_plain, kept.trans (by decide +kernel), ?_⟩
  rw [← Bool.not_eq_true, accepted]
  decide +kernel

/-- A report whose place ends with the phrase but for its last letter. -/
def borrowingReport : Unresolved :=
  ⟨"unresolved referenc".toList, "unresolved reference".toList, true, false, "Car".toList, []⟩

/-- It is kept, although its name is one of the platform. -/
theorem borrowing_report_kept
    : borrowingReport.IsPlain
      ∧ String.ofList borrowingReport.name ∈ platformNames
      ∧ kotlinErrors borrowingReport.text
        = ["unresolved referencerror: unresolved reference: Car"]
      ∧ (kotlinc.interpret ⟨1, [], borrowingReport.text⟩ : Verdict Exact).ok = false :=
  ⟨⟨by decide +kernel, rfl, by decide, List.all_eq_true.mp (by decide +kernel),
      by rintro _ ⟨⟩⟩,
    by decide, by decide +kernel, by decide +kernel⟩

end Checker

end Vetting
