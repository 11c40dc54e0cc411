import Vetting.Proofs.Pattern.Search
import Vetting.Proofs.Text.AnyCase
import Vetting.Proofs.Text.Lowering
import Vetting.Proofs.Validation.Outcomes

/-! The stubs before a C++ source. They push each line of the source down by their own number, and the
first number between colons in a line of the compiler is that of the line it complains about. So what
is left of the errors is what the compiler says about the source.
-/

namespace Vetting

open Text

-----------------------------------------------------------------------------------------
-- Lines of the prepared source
-----------------------------------------------------------------------------------------

namespace Prelude

/-- A text without line ends. -/
def IsSingleLine (line : String) : Prop :=
  '\n' ∉ line.toList ∧ '\r' ∉ line.toList

variable {declared : List String}

/-- Declarations on lines of their own are the first lines of a text, by induction on them. -/
theorem lines_text_append (single : ∀ line ∈ declared, IsSingleLine line) (rest : List Char)
    : lines ((text declared).toList ++ rest) = declared.map String.toList ++ lines rest := by
  induction declared with
  | nil => rfl
  | cons line others ih =>
      obtain ⟨⟨noFeed, noReturn⟩, onward⟩ := List.forall_mem_cons.mp single
      have first : (text (line :: others)).toList ++ rest
          = line.toList ++ '\n' :: ((text others).toList ++ rest) := by
        simp [text, String.join_cons]
      rw [first, lines_append noFeed, dropReturn_of_not_mem noReturn, ih onward]
      rfl

/-- The lines of an artifact come behind the declarations and an empty line. -/
theorem lines_prepend (single : ∀ line ∈ declared, IsSingleLine line) (artifact : List Char)
    : lines (prepend declared artifact)
      = declared.map String.toList ++ [] :: lines artifact := by
  have separator : lines ('\n' :: artifact) = [] :: lines artifact :=
    lines_append (List.not_mem_nil) artifact
  rw [prepend, lines_text_append single, separator]

/-- A text is looked through as the list of its characters. -/
theorem isSingleLine_ofList {line : List Char} (plain : (line.all fun c => c != '\n' && c != '\r') = true)
    : IsSingleLine (String.ofList line) := by
  simp only [List.all_eq_true, Bool.and_eq_true, bne_iff_ne] at plain
  rw [IsSingleLine, String.toList_ofList]
  exact ⟨fun feed => (plain _ feed).1 rfl, fun ret => (plain _ ret).2 rfl⟩

theorem isSingleLine_cppLines : ∀ line ∈ cppLines, IsSingleLine line := by
  unfold cppLines
  repeat' refine List.forall_mem_cons.mpr ⟨isSingleLine_ofList ?_, ?_⟩
  all_goals first | decide +kernel | simp

theorem lines_prepare_clang (source : List Char)
    : lines (Checker.clang.prepare source)
      = (cppLines.map String.toList ++ [[]]) ++ lines source := by
  rw [Checker.prepare, lines_prepend isSingleLine_cppLines, List.append_assoc]
  rfl

theorem length_stubs : (cppLines.map String.toList ++ [[]]).length = cppLineCount := by
  simp [cppLineCount]

end Prelude

-----------------------------------------------------------------------------------------
-- The number of a line
-----------------------------------------------------------------------------------------

/-- A number, in digits of any script, stands between colons. -/
def HasLineNumber (text : List Char) : Prop :=
  ∃ digits,
    digits ≠ []
    ∧ (∀ d ∈ digits, isDecimalDigit d = true)
    ∧ ':' :: (digits ++ [':']) <:+: text

/-- A number stands between two colons. -/
theorem not_hasLineNumber {text : List Char} (single : text.count ':' < 2) : ¬ HasLineNumber text := by
  rintro ⟨digits, _, _, within⟩
  have twice := within.sublist.count_le ':'
  simp only [List.count_cons_self, List.count_append, List.count_nil] at twice
  omega

theorem isDecimalDigit_of_isDigit {c : Char} (digit : c.isDigit = true)
    : isDecimalDigit c = true := by
  have small : c.toNat < 128 := by
    simp only [Char.isDigit, Bool.and_eq_true, decide_eq_true_eq, UInt32.le_iff_toNat_le] at digit
    change 48 ≤ c.toNat ∧ c.toNat ≤ 57 at digit
    omega
  rw [isDecimalDigit, if_pos small, digit]

/-- Behind a colon, a run of digits is taken as a whole, and then comes a colon. -/
theorem matchAt?_digits {digits rest : List Char} (some : digits ≠ [])
    (all : ∀ d ∈ digits, isDecimalDigit d = true) (ends : ∀ c ∈ rest.head?, isDecimalDigit c = false)
    (before : Option Char)
    : lineNumberPattern.matchAt? before (':' :: (digits ++ rest))
      = Pattern.run (.char ':') .some ⟨digits.getLast?, rest, [(1, digits)]⟩ := by
  let next : Pattern.Continuation Pattern.Progress := fun q =>
    Pattern.run (.char ':') .some
      { q with groups := (1, (digits ++ rest).take ((digits ++ rest).length - q.rest.length))
          :: q.groups }
  have stays : ∀ p : Pattern.Progress, (∃ c ∈ p.rest.head?, isDecimalDigit c = true) →
      next p = none := by
    intro p ⟨c, first, digit⟩
    refine Pattern.run_one_none fun d same => ?_
    obtain rfl := Option.mem_unique first same
    rw [beq_eq_false_iff_ne]
    rintro rfl
    exact absurd digit (by decide)
  have taken
      : Pattern.run (.oneOrMore (.one isDecimalDigit)) next ⟨.some ':', digits ++ rest, []⟩
        = next ⟨digits.getLast?, rest, []⟩ :=
    Pattern.run_oneOrMore_whole some all ends stays (.some ':')
  have length : (digits ++ rest).take ((digits ++ rest).length - rest.length) = digits := by
    simp
  exact taken.trans (by simp only [next, length])

/-- A match of a number between colons takes just that. -/
theorem matchAt?_lineNumber {text : List Char} {before : Option Char} {found : Pattern.Progress}
    : lineNumberPattern.matchAt? before text = some found
      ↔ ∃ digits rest,
          text = ':' :: (digits ++ ':' :: rest)
          ∧ digits ≠ []
          ∧ (∀ d ∈ digits, isDecimalDigit d = true)
          ∧ found = ⟨some ':', rest, [(1, digits)]⟩ := by
  constructor
  · intro starts
    have colon : ∃ body, text = ':' :: body := by
      by_contra other
      have fails : lineNumberPattern.matchAt? before text = none := by
        refine Pattern.run_one_none fun c first => ?_
        rw [beq_eq_false_iff_ne]
        rintro rfl
        exact other (List.head?_eq_some_iff.mp first)
      exact absurd (fails.symm.trans starts) (by simp)
    obtain ⟨body, rfl⟩ := colon
    have ends : ∀ c ∈ (body.dropWhile isDecimalDigit).head?, isDecimalDigit c = false := by
      intro c first
      have := List.head?_dropWhile_not isDecimalDigit body
      rw [first] at this
      simpa using this
    have whole := List.takeWhile_append_dropWhile (p := isDecimalDigit) (l := body)
    by_cases none : body.takeWhile isDecimalDigit = []
    · rw [none, List.nil_append] at whole
      rw [whole] at ends
      have fails : lineNumberPattern.matchAt? before (':' :: body) = .none :=
        Pattern.run_oneOrMore_none ends
      exact absurd (fails.symm.trans starts) (by simp)
    · have all : ∀ d ∈ body.takeWhile isDecimalDigit, isDecimalDigit d = true :=
        fun d member => List.mem_takeWhile_imp member
      rw [← whole, matchAt?_digits none all ends, Pattern.run_char_eq_some] at starts
      obtain ⟨rest, colon, same⟩ := starts
      refine ⟨_, rest, ?_, none, all, (Option.some.inj same).symm⟩
      rw [← colon, whole]
  · rintro ⟨digits, rest, rfl, some, all, rfl⟩
    rw [matchAt?_digits some all (by simp [isDecimalDigit])]
    rfl

/-- What ends at the first separator of a text ends at or before each separator of it. -/
theorem prefix_of_append_eq {α : Type} {separator : α} {piece rest front back : List α}
    (absent : separator ∉ piece) (same : front ++ separator :: back = piece ++ separator :: rest)
    : piece ++ [separator] <+: front ++ [separator] := by
  rcases List.append_eq_append_iff.mp same with ⟨between, rfl, ends⟩ | ⟨between, rfl, ends⟩
  · cases between with
    | nil => simp
    | cons first _ =>
        obtain ⟨rfl, _⟩ := List.cons.inj ends
        exact absurd (by simp) absent
  · cases between with
    | nil => simp
    | cons first _ =>
        obtain ⟨rfl, _⟩ := List.cons.inj ends
        simp

/-- The first number between colons is that behind a text in which there is none. -/
theorem diagnosticLine?_append {file number rest : List Char} (unnumbered : ¬ HasLineNumber (file ++ [':']))
    (some : number ≠ []) (all : ∀ d ∈ number, isDecimalDigit d = true)
    : diagnosticLine? (file ++ ':' :: (number ++ ':' :: rest)) = readWord? number := by
  have nowhere : ∀ start, start ≠ [] → start <:+ file → ∀ before,
      lineNumberPattern.matchAt? before (start ++ ':' :: (number ++ ':' :: rest)) = none := by
    intro start nonempty ends before
    rw [Option.eq_none_iff_forall_ne_some]
    intro found starts
    obtain ⟨other, behind, same, otherSome, otherAll, _⟩ := matchAt?_lineNumber.mp starts
    have noColon : ':' ∉ other := fun member => absurd (otherAll ':' member) (by decide)
    cases start with
    | nil => exact absurd rfl nonempty
    | cons colon more =>
        obtain ⟨rfl, tails⟩ := List.cons.inj same
        have within : ':' :: (other ++ [':']) <+: ':' :: (more ++ [':']) :=
          List.cons_prefix_cons.mpr ⟨rfl, prefix_of_append_eq noColon tails⟩
        obtain ⟨front, rfl⟩ := ends
        refine unnumbered ⟨other, otherSome, otherAll, within.isInfix.trans ?_⟩
        rw [List.append_assoc]
        exact (List.suffix_append _ _).isInfix
  obtain ⟨last, onward⟩ := Pattern.search?_append nowhere none
  have starts
      : lineNumberPattern.matchAt? last (':' :: (number ++ ':' :: rest))
        = .some ⟨.some ':', rest, [(1, number)]⟩ :=
    matchAt?_lineNumber.mpr ⟨number, rest, rfl, some, all, rfl⟩
  rw [diagnosticLine?, Pattern.first?, onward, Pattern.search?_of_matchAt? starts]
  rfl

/-- A number is read when it is written in digits of ASCII and fits into a word. -/
theorem readWord?_eq_some_iff {digits : List Char} {number : Nat}
    : readWord? digits = some number
      ↔ digits ≠ []
        ∧ (∀ d ∈ digits, d.isDigit = true)
        ∧ Nat.ofDigitChars 10 digits 0 = number
        ∧ number < UInt64.size := by
  have value : digits.foldl (fun n d => n * 10 + (d.toNat - '0'.toNat)) 0
      = Nat.ofDigitChars 10 digits 0 := by
    simp only [Nat.ofDigitChars, Nat.mul_comm 10]
  unfold readWord?
  simp only [value]
  split
  · rename_i refused
    constructor
    · simp
    · rintro ⟨some, all, _⟩
      simp [some, List.all_eq_true.mpr all] at refused
  · rename_i accepted
    simp only [Bool.or_eq_true, List.isEmpty_iff, Bool.not_eq_true', Bool.not_eq_false, not_or,
      List.all_eq_true] at accepted
    constructor
    · intro read
      split at read
      · rename_i fits
        obtain rfl := Option.some.inj read
        exact ⟨accepted.1, accepted.2, rfl, fits⟩
      · simp at read
    · rintro ⟨_, _, rfl, fits⟩
      rw [if_pos fits]

-----------------------------------------------------------------------------------------
-- What is left of the errors
-----------------------------------------------------------------------------------------

/-- An error as a compiler prints it, behind the place that it is reported for. -/
structure Diagnostic where
  file : List Char
  number : List Char
  column : List Char
  message : List Char

namespace Diagnostic

/-- The line that is printed. -/
def text (diagnostic : Diagnostic) : List Char :=
  diagnostic.file ++ ':' :: (diagnostic.number
    ++ ':' :: (diagnostic.column ++ ": error:".toList ++ ' ' :: diagnostic.message))

/-- The number of the line of the source. -/
def line (diagnostic : Diagnostic) : Nat :=
  Nat.ofDigitChars 10 diagnostic.number 0

/-- The number of the line is the first between colons and fits into a word, and the stubs are not
mentioned.
-/
structure IsPlain (diagnostic : Diagnostic) : Prop where
  unnumbered : ¬ HasLineNumber (diagnostic.file ++ [':'])
  numbered : diagnostic.number ≠ []
  digits : ∀ d ∈ diagnostic.number, d.isDigit = true
  fits : diagnostic.line < UInt64.size
  unmarked : ¬ stubMark.toList <:+: diagnostic.text

theorem IsPlain.diagnosticLine?_text {diagnostic : Diagnostic} (plain : diagnostic.IsPlain)
    : diagnosticLine? diagnostic.text = some diagnostic.line :=
  (diagnosticLine?_append plain.unnumbered plain.numbered
      fun d member => isDecimalDigit_of_isDigit (plain.digits d member)).trans
    (readWord?_eq_some_iff.mpr ⟨plain.numbered, plain.digits, rfl, plain.fits⟩)

/-- An error lies in the stubs when it is reported for one of their lines. -/
theorem IsPlain.inStubs_text {diagnostic : Diagnostic} (plain : diagnostic.IsPlain)
    : inStubs diagnostic.text = decide (diagnostic.line ≤ Prelude.cppLineCount) := by
  have unmarked : has diagnostic.text stubMark = false := by
    rw [← Bool.not_eq_true]
    exact fun marked => plain.unmarked (contains_iff.mp marked)
  rw [inStubs, plain.diagnosticLine?_text, unmarked, Bool.or_false, Option.any_some]

end Diagnostic

/-- A character of ASCII in lower case, other than the one that the Kelvin sign is lower-cased to. -/
def isPlainLower (c : Char) : Bool :=
  c.toNat < 128 && c.toLower == c && c != 'k'

/-- A word is looked for in all letter cases. -/
theorem hasAnyCase_iff {line : List Char} {word : String} (nonempty : word.toList ≠ [])
    (plain : word.toList.all isPlainLower = true) (ends : word.toList.getLast? ≠ some 'i')
    : hasAnyCase line word = true ↔ OccursAnyCase line word.toList := by
  simp only [List.all_eq_true, isPlainLower, Bool.and_eq_true, decide_eq_true_eq, beq_iff_eq,
    bne_iff_ne] at plain
  have lowered : word.toList.map Char.toLower = word.toList :=
    (List.map_congr_left fun c member => (plain c member).1.2).trans (List.map_id _)
  have noK : 'k' ∉ word.toList.map Char.toLower := by
    rw [lowered]
    exact fun member => (plain _ member).2 rfl
  have found : contains (lower line) (word.toList.map Char.toLower) = true
      ↔ OccursAnyCase line word.toList :=
    contains_lower_iff nonempty (fun c member => (plain c member).1.1) noK (by rwa [lowered])
  rwa [lowered] at found

theorem hasAnyCase_error_iff {line : List Char}
    : hasAnyCase line "error:" = true ↔ OccursAnyCase line "error:".toList :=
  hasAnyCase_iff (by decide) (by decide) (by decide)

theorem hasAnyCase_error_eq_false {line : List Char}
    (absent : ¬ OccursAnyCase line "error:".toList)
    : hasAnyCase line "error:" = false := by
  rwa [← Bool.not_eq_true, hasAnyCase_error_iff]

/-- Of lines that are told apart as kept and others, those are left that are kept. -/
theorem filter_errorLines_eq {α : Type} {stderr : List Char} {printed : List α}
    {text : α → List Char} {excused : List Char → Bool} {kept : α → Bool}
    (shown : lines stderr = printed.map text)
    (counts
      : ∀ line ∈ printed,
          (!excused (text line) && hasAnyCase (text line) "error:") = kept line)
    : ((errorLines stderr).filter fun line => !excused line).map String.ofList
      = (printed.filter kept).map fun line => String.ofList (text line) := by
  rw [errorLines, shown, List.filter_filter, List.filter_map, List.map_map]
  congr 1
  exact List.filter_congr counts

theorem Diagnostic.hasAnyCase_text (diagnostic : Diagnostic)
    : hasAnyCase diagnostic.text "error:" = true := by
  refine hasAnyCase_error_iff.mpr ⟨"error:".toList, ?_, rfl⟩
  refine ⟨diagnostic.file ++ ':' :: (diagnostic.number ++ ':' :: (diagnostic.column ++ [':', ' '])),
    ' ' :: diagnostic.message, ?_⟩
  have word : ": error:".toList = [':', ' '] ++ "error:".toList := rfl
  simp [text, word]

/-- A line of what a compiler prints to its error stream: an error, or another text. -/
inductive PrintedLine where
  | error (diagnostic : Diagnostic)
  | other (text : List Char)

namespace PrintedLine

/-- The line itself. -/
def text : PrintedLine → List Char
  | error diagnostic => diagnostic.text
  | other text => text

/-- Errors are plain, and nothing else has the word for one in it, in any letter case. -/
def IsPlain : PrintedLine → Prop
  | error diagnostic => diagnostic.IsPlain
  | other text => ¬ OccursAnyCase text "error:".toList

/-- Whether a line is an error behind the stubs. -/
def isBehindStubs : PrintedLine → Bool
  | error diagnostic => Prelude.cppLineCount < diagnostic.line
  | other _ => false

/-- A line counts as an error of the source exactly when it is one behind the stubs. -/
theorem IsPlain.counts {line : PrintedLine} (plain : line.IsPlain)
    : (!inStubs line.text && hasAnyCase line.text "error:") = line.isBehindStubs := by
  cases line with
  | error diagnostic =>
      have excused := Diagnostic.IsPlain.inStubs_text plain
      rw [text, excused, diagnostic.hasAnyCase_text, Bool.and_true, ← decide_not, isBehindStubs]
      exact decide_eq_decide.mpr Nat.not_le
  | other text =>
      rw [PrintedLine.text, hasAnyCase_error_eq_false plain, Bool.and_false, isBehindStubs]

end PrintedLine

theorem cppErrors_eq {stderr : List Char} {printed : List PrintedLine}
    (shown : lines stderr = printed.map PrintedLine.text) (plain : ∀ line ∈ printed, line.IsPlain)
    : cppErrors stderr
      = (printed.filter PrintedLine.isBehindStubs).map fun line => String.ofList line.text :=
  filter_errorLines_eq shown fun line member => (plain line member).counts

namespace Checker

variable {R : Type} [Scale R]

/-- The stubs push the lines of a source down by their own number, an empty line included. Of what the
compiler prints, exactly the errors on lines behind the stubs are kept, as they are and in their order,
and the source is accepted when there is none.
-/
theorem source_errors_kept (source : List Char) (output : ToolOutput) (printed : List PrintedLine)
    (shown : lines output.stderr = printed.map PrintedLine.text)
    (plain : ∀ line ∈ printed, line.IsPlain)
    : (lines (clang.prepare source)).take Prelude.cppLineCount
        = Prelude.cppLines.map String.toList ++ [[]]
      ∧ (∀ k, (lines (clang.prepare source))[Prelude.cppLineCount + k]? = (lines source)[k]?)
      ∧ cppErrors output.stderr
        = (printed.filter PrintedLine.isBehindStubs).map (fun line => String.ofList line.text)
      ∧ ((clang.interpret output : Verdict R).ok = true
        ↔ ∀ line ∈ printed, line.isBehindStubs = false) := by
  have kept := cppErrors_eq shown plain
  refine ⟨?_, ?_, kept, ?_⟩
  · rw [Prelude.lines_prepare_clang, ← Prelude.length_stubs, List.take_left]
  · intro k
    rw [Prelude.lines_prepare_clang, ← Prelude.length_stubs, List.getElem?_append_right (by omega),
      Nat.add_sub_cancel_left]
  · rw [interpret_ok_iff (.inl rfl), ← cppErrors_eq_nil, kept]
    simp [List.filter_eq_nil_iff]

/-- What a compiler prints about the last line of the stubs and the first of a source, with a part of
the source between them.
-/
def boundaryLines : List PrintedLine :=
  [.error ⟨"/tmp/a.cpp".toList, "22".toList, "1".toList, "expected ';'".toList⟩,
    .other "    3 | class A".toList,
    .error ⟨"/tmp/a.cpp".toList, "0023".toList, "10".toList, "expected '\x7d'".toList⟩]

theorem boundaryLines_plain : ∀ line ∈ boundaryLines, line.IsPlain := by
  have single : ¬ HasLineNumber "/tmp/a.cpp:".toList := not_hasLineNumber (by decide)
  simp only [boundaryLines, List.forall_mem_cons]
  refine ⟨?_, ?_, ?_, by simp⟩
  · exact ⟨single, by decide, List.all_eq_true.mp (by decide), by decide, by decide +kernel⟩
  · exact fun named => absurd (hasAnyCase_error_iff.mpr named) (by decide +kernel)
  · exact ⟨single, by decide, List.all_eq_true.mp (by decide), by decide, by decide +kernel⟩

theorem source_errors_kept_boundary
    : ∃ output : ToolOutput,
        lines output.stderr = boundaryLines.map PrintedLine.text
        ∧ (∀ line ∈ boundaryLines, line.IsPlain)
        ∧ cppErrors output.stderr = ["/tmp/a.cpp:0023:10: error: expected '\x7d'"]
        ∧ (clang.interpret output : Verdict Exact).ok = false := by
  let output : ToolOutput :=
    ⟨1, [], ("/tmp/a.cpp:22:1: error: expected ';'\n    3 | class A\r\n"
      ++ "/tmp/a.cpp:0023:10: error: expected '\x7d'").toList⟩
  have shown : lines output.stderr = boundaryLines.map PrintedLine.text := by decide +kernel
  obtain ⟨_, _, kept, accepted⟩ :=
    source_errors_kept (R := Exact) [] output boundaryLines shown boundaryLines_plain
  refine ⟨output, shown, boundaryLines_plain, kept.trans (by decide +kernel), ?_⟩
  rw [← Bool.not_eq_true, accepted]
  decide +kernel

end Checker

end Vetting
