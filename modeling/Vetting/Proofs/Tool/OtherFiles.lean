import Vetting.Proofs.Tool.Stubs

/-! Errors in other files than the source. The number of the line of a diagnostic is compared with the
number of lines of the stubs, whichever file it is reported for. So an error at the start of a header
is taken for one in the stubs, and a run that reports nothing else is accepted.
-/

namespace Vetting

open Text

-----------------------------------------------------------------------------------------
-- The first number in a line
-----------------------------------------------------------------------------------------

/-- The first number between colons in a line, in digits of ASCII. -/
def FirstNumber (line : List Char) (number : Nat) : Prop :=
  ∃ front digits rest,
    line = front ++ ':' :: (digits ++ ':' :: rest)
    ∧ ¬ HasLineNumber (front ++ [':'])
    ∧ digits ≠ []
    ∧ (∀ d ∈ digits, d.isDigit = true)
    ∧ Nat.ofDigitChars 10 digits 0 = number

variable {line : List Char} {number : Nat}

/-- A number between colons has a first one at it or before it, by induction on what stands before it.
-/
theorem exists_first_number (front digits rest : List Char) (some : digits ≠ [])
    (all : ∀ d ∈ digits, isDecimalDigit d = true)
    : ∃ start first behind,
        front ++ ':' :: (digits ++ ':' :: rest) = start ++ ':' :: (first ++ ':' :: behind)
        ∧ ¬ HasLineNumber (start ++ [':'])
        ∧ first ≠ []
        ∧ ∀ d ∈ first, isDecimalDigit d = true := by
  by_cases earlier : HasLineNumber (front ++ [':'])
  · obtain ⟨other, otherSome, otherAll, before, after, split⟩ := earlier
    have shorter : before.length < front.length := by
      have := congrArg List.length split
      simp only [List.length_append, List.length_cons, List.length_nil] at this
      omega
    obtain ⟨start, first, behind, same, none, firstSome, firstAll⟩ :=
      exists_first_number before other (after ++ (digits ++ ':' :: rest)) otherSome otherAll
    refine ⟨start, first, behind, ?_, none, firstSome, firstAll⟩
    rw [← same, ← List.singleton_append (x := ':') (l := digits ++ ':' :: rest), ← List.append_assoc,
      ← split]
    simp
  · exact ⟨front, digits, rest, rfl, earlier, some, all⟩
termination_by front.length

theorem diagnosticLine?_of_unnumbered (unnumbered : ¬ HasLineNumber line)
    : diagnosticLine? line = none := by
  have nowhere : ∀ start, start <:+ line → ∀ before,
      lineNumberPattern.matchAt? before start = none := by
    intro start ends before
    rw [Option.eq_none_iff_forall_ne_some]
    intro found starts
    obtain ⟨digits, rest, rfl, some, all, _⟩ := matchAt?_lineNumber.mp starts
    refine unnumbered ⟨digits, some, all, List.IsInfix.trans ?_ ends.isInfix⟩
    exact ⟨[], rest, by simp⟩
  rw [diagnosticLine?, Pattern.first?, Pattern.search?_none nowhere]
  rfl

/-- The number that is read in a line is the first between colons, when it fits into a word. -/
theorem diagnosticLine?_eq_some_iff
    : diagnosticLine? line = some number ↔ FirstNumber line number ∧ number < UInt64.size := by
  constructor
  · intro read
    by_cases numbered : HasLineNumber line
    · obtain ⟨digits, some, all, front, rest, rfl⟩ := numbered
      obtain ⟨start, first, behind, same, none, firstSome, firstAll⟩ :=
        exists_first_number front digits rest some all
      have split : front ++ ':' :: (digits ++ [':']) ++ rest
          = start ++ ':' :: (first ++ ':' :: behind) := by
        rw [← same]
        simp
      rw [split, diagnosticLine?_append none firstSome firstAll] at read
      obtain ⟨_, ascii, value, fits⟩ := readWord?_eq_some_iff.mp read
      exact ⟨⟨start, first, behind, split, none, firstSome, ascii, value⟩, fits⟩
    · rw [diagnosticLine?_of_unnumbered numbered] at read
      simp at read
  · rintro ⟨⟨front, digits, rest, rfl, none, some, ascii, value⟩, fits⟩
    have all : ∀ d ∈ digits, isDecimalDigit d = true :=
      fun d member => isDecimalDigit_of_isDigit (ascii d member)
    rw [diagnosticLine?_append none some all]
    exact readWord?_eq_some_iff.mpr ⟨some, ascii, value, fits⟩

-----------------------------------------------------------------------------------------
-- What is taken for the stubs
-----------------------------------------------------------------------------------------

/-- The first number in a line is that of a line of the stubs, or the stubs are mentioned in it. -/
def TakenForStubs (line : List Char) : Prop :=
  (∃ number, FirstNumber line number ∧ number ≤ Prelude.cppLineCount)
  ∨ stubMark.toList <:+: line

/-- These are the lines that are excused. -/
theorem excuses_iff : Checker.clang.Excuses line ↔ TakenForStubs line := by
  have small : Prelude.cppLineCount < UInt64.size := by decide
  refine or_congr (exists_congr fun number => ?_) contains_iff
  rw [diagnosticLine?_eq_some_iff, and_assoc]
  refine and_congr_right fun _ => ⟨And.right, fun within => ⟨?_, within⟩⟩
  exact Nat.lt_of_le_of_lt within small

namespace Diagnostic

variable {diagnostic : Diagnostic}

theorem mem_errorLines {stderr : List Char} (printed : diagnostic.text ∈ lines stderr)
    : diagnostic.text ∈ errorLines stderr :=
  List.mem_filter.mpr ⟨printed, diagnostic.hasAnyCase_text⟩

/-- An error that is printed is kept exactly when it is not taken for one in the stubs. -/
theorem mem_cppErrors_iff {stderr : List Char} (printed : diagnostic.text ∈ lines stderr)
    : String.ofList diagnostic.text ∈ cppErrors stderr ↔ ¬ TakenForStubs diagnostic.text := by
  rw [cppErrors, List.mem_map_of_injective fun _ _ same => String.ofList_injective same,
    List.mem_filter, ← excuses_iff, ← Checker.inStubs_iff]
  simp [mem_errorLines printed]

/-- The number of the line is written in digits, and the file has no number between colons. -/
structure IsPlaced (diagnostic : Diagnostic) : Prop where
  unnumbered : ¬ HasLineNumber (diagnostic.file ++ [':'])
  numbered : diagnostic.number ≠ []
  digits : ∀ d ∈ diagnostic.number, d.isDigit = true

/-- An error is taken for one in the stubs by the number of its line, or because it mentions them. -/
theorem IsPlaced.takenForStubs_iff (placed : diagnostic.IsPlaced)
    : TakenForStubs diagnostic.text
      ↔ diagnostic.line ≤ Prelude.cppLineCount ∨ stubMark.toList <:+: diagnostic.text := by
  have all : ∀ d ∈ diagnostic.number, isDecimalDigit d = true :=
    fun d member => isDecimalDigit_of_isDigit (placed.digits d member)
  have read : diagnosticLine? diagnostic.text = readWord? diagnostic.number :=
    diagnosticLine?_append placed.unnumbered placed.numbered all
  rw [← excuses_iff]
  refine or_congr ?_ contains_iff
  simp only [read, readWord?_eq_some_iff]
  constructor
  · rintro ⟨number, ⟨_, _, rfl, _⟩, within⟩
    exact within
  · intro within
    have fits : diagnostic.line < UInt64.size := Nat.lt_of_le_of_lt within (by decide)
    exact ⟨diagnostic.line, ⟨placed.numbered, placed.digits, rfl, fits⟩, within⟩

end Diagnostic

-----------------------------------------------------------------------------------------
-- Errors of any file
-----------------------------------------------------------------------------------------

namespace Checker

variable {R : Type} [Scale R]

/-- The file of an error has no part in whether it is kept: what counts is the number of the line, or
whatever number stands between colons before it, and that the stubs are not mentioned. A run is
accepted when nothing is kept.
-/
theorem kept_whatever_file_iff (output : ToolOutput) (diagnostic : Diagnostic)
    (printed : diagnostic.text ∈ lines output.stderr)
    : (String.ofList diagnostic.text ∈ cppErrors output.stderr
          ↔ ¬ TakenForStubs diagnostic.text)
      ∧ (diagnostic.IsPlaced
          → (TakenForStubs diagnostic.text
            ↔ diagnostic.line ≤ Prelude.cppLineCount ∨ stubMark.toList <:+: diagnostic.text))
      ∧ ((clang.interpret output : Verdict R).ok = true
          ↔ ∀ line ∈ errorLines output.stderr, TakenForStubs line) := by
  refine ⟨Diagnostic.mem_cppErrors_iff printed, Diagnostic.IsPlaced.takenForStubs_iff, ?_⟩
  rw [interpret_ok_iff (.inl rfl)]
  exact forall₂_congr fun _ _ => excuses_iff

/-- An error that a header has behind as many lines as the stubs. -/
def deepHeaderError : Diagnostic :=
  ⟨"/usr/include/vhal.h".toList, "340".toList, "9".toList, "unknown type name 'Prop'".toList⟩

theorem kept_whatever_file_iff_deepHeader
    : ∃ output : ToolOutput,
        deepHeaderError.text ∈ lines output.stderr
        ∧ deepHeaderError.IsPlaced
        ∧ String.ofList deepHeaderError.text ∈ cppErrors output.stderr
        ∧ (clang.interpret output : Verdict Exact).ok = false := by
  let output : ToolOutput := ⟨1, [], deepHeaderError.text ++ ['\n']⟩
  have printed : deepHeaderError.text ∈ lines output.stderr := by decide +kernel
  have placed : deepHeaderError.IsPlaced :=
    ⟨not_hasLineNumber (by decide), by decide, List.all_eq_true.mp (by decide)⟩
  obtain ⟨keeps, placedIff, accepts⟩ :=
    kept_whatever_file_iff (R := Exact) output deepHeaderError printed
  have notTaken : ¬ TakenForStubs deepHeaderError.text := by
    rw [placedIff placed]
    decide +kernel
  refine ⟨output, printed, placed, keeps.mpr notTaken, ?_⟩
  rw [← Bool.not_eq_true, accepts]
  exact fun excused => notTaken (excused _ (Diagnostic.mem_errorLines printed))

/-- An error that a header has in one of its first lines. -/
def headerError : Diagnostic :=
  ⟨"/usr/include/vhal.h".toList, "3".toList, "1".toList, "unknown type name 'Prop'".toList⟩

/-- A host whose C++ compiler fails for that header. -/
def headerCompiler : Rehearsal where
  installed tool :=
    if tool = .clangPlusPlus then
      some (.standIn ⟨[], encode (headerError.text ++ ['\n']), false, some 1, 0⟩)
    else none
  limit := 1000
  hasScratch := true

/-- A source that includes a header. -/
def includingSource : List Char := "#include <vhal.h>\n".toList

/-- The only error of a failed run is one in a header, which no source is named like, and the source is
accepted.
-/
theorem header_error_excused
    : ∃ v : Validator Exact, ∃ output,
        v.run .clang ⟨"tools/clang++", none⟩ (clang.prepare includingSource) = .completed output
        ∧ output.exitCode = 1
        ∧ lines output.stderr = [headerError.text]
        ∧ ¬ clang.suffix.toList <:+ headerError.file
        ∧ cppErrors output.stderr = []
        ∧ (v.validate .cpp includingSource).1
          = ⟨true, .fraction 1, [], "clang++ --syntax-only", some "Syntax OK (VHAL stubs injected)"⟩ :=
  ⟨headerCompiler.validator fun _ => Scale.whole 0, ⟨1, [], headerError.text ++ ['\n']⟩,
    by decide +kernel, rfl, by decide +kernel, by decide, by decide +kernel, by decide +kernel⟩

end Checker

end Vetting
