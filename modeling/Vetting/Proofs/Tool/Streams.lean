import Vetting.Proofs.Tool.Stubs

/-! The two streams of a tool. They are joined to one text before it is split into lines, so the lines
of standard output are followed by those of standard error only where the last line of standard
output has an end. Where it has none, the first line of standard error goes on with it, and an error
is merged or lost whenever the line that comes of the two complains and is not the line begun.
-/

namespace Vetting

namespace Text

-----------------------------------------------------------------------------------------
-- Lines of joined texts
-----------------------------------------------------------------------------------------

/-- All lines of a text have an end. -/
def IsEnded (text : List Char) : Prop :=
  ∀ c ∈ text.getLast?, c = '\n'

variable {front line back : List Char}

theorem isEnded_cons (ended : IsEnded back) (c : Char) (more : back ≠ []) : IsEnded (c :: back) := by
  intro d last
  rw [List.getLast?_cons_of_ne_nil more] at last
  exact ended d last

theorem isEnded_of_append (ended : IsEnded (front ++ back)) : IsEnded back := by
  intro c last
  refine ended c ?_
  rw [List.getLast?_append, Option.mem_def.mp last]
  rfl

/-- A text has lines with an end, and then perhaps one without, by induction on the text. -/
theorem exists_ended (text : List Char)
    : ∃ front opened, text = front ++ opened ∧ IsEnded front ∧ '\n' ∉ opened := by
  induction text with
  | nil => exact ⟨[], [], rfl, by simp [IsEnded], by simp⟩
  | cons c rest ih =>
      obtain ⟨front, opened, rfl, ended, noFeed⟩ := ih
      by_cases empty : front = []
      · subst empty
        by_cases feed : c = '\n'
        · exact ⟨[c], opened, rfl, by simp [IsEnded, feed], noFeed⟩
        · refine ⟨[], c :: opened, rfl, ended, ?_⟩
          simp [Ne.symm feed, noFeed]
      · exact ⟨c :: front, opened, rfl, isEnded_cons ended c empty, noFeed⟩

theorem splitChar_of_not_mem {separator : Char} (absent : separator ∉ line)
    : splitChar separator line = [line] := by
  induction line with
  | nil => rfl
  | cons c rest ih =>
      rw [List.mem_cons, not_or] at absent
      simp [splitChar, ih absent.2, Ne.symm absent.1]

theorem lines_nil : lines [] = [] := rfl

theorem lines_of_not_mem (noFeed : '\n' ∉ line) (some : line ≠ []) : lines line = [line] := by
  simp [lines, splitChar_of_not_mem noFeed, some]

/-- Behind lines that have an end, the lines of a text are its own, by induction on the lines. -/
theorem lines_ended_append (front back : List Char) (ended : IsEnded front)
    : lines (front ++ back) = lines front ++ lines back := by
  by_cases feed : '\n' ∈ front
  · obtain ⟨line, rest, split, noFeed⟩ := List.eq_append_cons_of_mem feed
    have shorter : rest.length < front.length := by
      rw [split, List.length_append, List.length_cons]
      omega
    have later : IsEnded rest := by
      rw [split, ← List.singleton_append, ← List.append_assoc] at ended
      exact isEnded_of_append ended
    have onward := lines_ended_append rest back later
    rw [split, List.append_assoc, List.cons_append, lines_append noFeed, lines_append noFeed,
      onward, List.cons_append]
  · have empty : front = [] := by
      rw [← List.getLast?_eq_none_iff, Option.eq_none_iff_forall_ne_some]
      intro c last
      obtain rfl := ended c last
      exact feed (List.mem_of_getLast? last)
    rw [empty]
    rfl
termination_by front.length

/-- A text whose first line goes on with a line that was begun: the other lines stay. A line feed at
the start of the text may make a return at the end of the line begun a part of its end.
-/
theorem lines_opened_append {opened text : List Char} (noFeed : '\n' ∉ opened) (begun : opened ≠ [])
    (more : text ≠ [])
    : ∃ first joined rest,
        lines text = first :: rest
        ∧ lines (opened ++ text) = joined :: rest
        ∧ (joined = opened ++ first ∨ first = [] ∧ joined = dropReturn opened) := by
  by_cases feed : '\n' ∈ text
  · obtain ⟨line, rest, rfl, single⟩ := List.eq_append_cons_of_mem feed
    have whole : '\n' ∉ opened ++ line := by simp [noFeed, single]
    refine ⟨dropReturn line, dropReturn (opened ++ line), lines rest, lines_append single rest, ?_, ?_⟩
    · rw [← List.append_assoc, lines_append whole]
    · cases line with
      | nil => exact .inr ⟨rfl, by simp⟩
      | cons c others =>
          left
          unfold dropReturn
          rw [List.getLast?_append_of_ne_nil _ (List.cons_ne_nil c others)]
          split
          · rw [List.dropLast_append_of_ne_nil (List.cons_ne_nil c others)]
          · rfl
  · have whole : '\n' ∉ opened ++ text := by simp [noFeed, feed]
    refine ⟨text, opened ++ text, [], lines_of_not_mem feed more, ?_, .inl rfl⟩
    exact lines_of_not_mem whole (by simp [begun])

/-- A word without a return stands in a line exactly when it stands in it without the return at its
end.
-/
theorem occursAnyCase_dropReturn_iff {word : List Char} (some : word ≠ [])
    (absent : '\r' ∉ word.map Char.toLower)
    : OccursAnyCase (dropReturn line) word ↔ OccursAnyCase line word := by
  unfold dropReturn
  split
  · rename_i ends
    obtain ⟨front, rfl⟩ := List.getLast?_eq_some_iff.mp (by simpa using ends)
    have nothing : ¬ OccursAnyCase [] word := by
      simp [occursAnyCase_iff, some]
    rw [List.dropLast_concat, occursAnyCase_append_iff absent]
    simp [nothing]
  · rfl

end Text

open Text

namespace Checker

-----------------------------------------------------------------------------------------
-- Lines that complain
-----------------------------------------------------------------------------------------

variable {checker : Checker} {front line back opened : List Char}

/-- A line has one of the words of a tool in it that complain, in any letter case. -/
def Complains (checker : Checker) (line : List Char) : Prop :=
  ∃ word ∈ checker.complaints, OccursAnyCase line word.toList

/-- The words that complain are not empty, and lower-casing a text neither makes nor spoils one. -/
theorem complaints_plain {word : String} (listed : word ∈ checker.complaints)
    : word.toList ≠ []
      ∧ '\r' ∉ word.toList.map Char.toLower
      ∧ ∀ line, hasAnyCase line word = true ↔ OccursAnyCase line word.toList := by
  have either : word = "error" ∨ word = "undefined" := by
    cases checker with
    | checkpolicy => simpa [complaints] using listed
    | plantUml => exact .inl (by simpa [complaints] using listed)
    | clang | kotlinc => simp [complaints] at listed
  rcases either with rfl | rfl
  all_goals
    refine ⟨by decide, by decide, fun line => ?_⟩
    exact hasAnyCase_iff (by decide) (by decide) (by decide)

/-- The test for a line that complains. -/
def complains (checker : Checker) (line : List Char) : Bool :=
  checker.complaints.any (hasAnyCase line)

theorem complains_iff : checker.complains line = true ↔ checker.Complains line := by
  rw [complains, List.any_eq_true, Complains]
  refine exists_congr fun word => and_congr_right fun listed => ?_
  exact (complaints_plain listed).2.2 line

theorem not_complains_nil : ¬ checker.Complains [] := by
  rintro ⟨word, listed, stands⟩
  have some := (complaints_plain listed).1
  simp [occursAnyCase_iff, some] at stands

theorem Complains.append_right (complains : checker.Complains front) (back : List Char)
    : checker.Complains (front ++ back) := by
  obtain ⟨word, listed, run, inside, same⟩ := complains
  exact ⟨word, listed, run, inside.trans (List.prefix_append front back).isInfix, same⟩

theorem Complains.append_left (complains : checker.Complains back) (front : List Char)
    : checker.Complains (front ++ back) := by
  obtain ⟨word, listed, run, inside, same⟩ := complains
  exact ⟨word, listed, run, inside.trans (List.suffix_append front back).isInfix, same⟩

theorem complains_dropReturn_iff
    : checker.Complains (dropReturn line) ↔ checker.Complains line := by
  refine exists_congr fun word => and_congr_right fun listed => ?_
  obtain ⟨some, noReturn, _⟩ := complaints_plain listed
  exact occursAnyCase_dropReturn_iff some noReturn

-----------------------------------------------------------------------------------------
-- Lines that merge
-----------------------------------------------------------------------------------------

/-- The last line of standard output has no end, so the first line of standard error goes on with it.
The line that comes of the two complains, and it is not the line that was begun.
-/
def Merges (checker : Checker) (output : ToolOutput) : Prop :=
  ∃ front opened joined,
    output.stdout = front ++ opened
    ∧ IsEnded front
    ∧ '\n' ∉ opened
    ∧ opened ≠ []
    ∧ (lines (opened ++ output.stderr)).head? = some joined
    ∧ joined ≠ opened
    ∧ checker.Complains joined

theorem linesWith_complaints (checker : Checker) (text : List Char)
    : linesWith checker.complaints text
      = ((lines text).filter checker.complains).map String.ofList :=
  rfl

/-- A line that goes on with a line begun counts for what the two count by themselves, unless it
complains and is not the line begun.
-/
theorem filter_joined_iff {first joined : List Char} (begun : opened ≠ [])
    (follows : joined = opened ++ first ∨ first = [] ∧ joined = dropReturn opened)
    : [joined].filter checker.complains
        = [opened].filter checker.complains ++ [first].filter checker.complains
      ↔ ¬ (joined ≠ opened ∧ checker.Complains joined) := by
  have quiet : checker.complains [] = false := by
    rw [← Bool.not_eq_true, complains_iff]
    exact not_complains_nil
  rcases follows with rfl | ⟨rfl, rfl⟩
  · by_cases whole : checker.Complains (opened ++ first)
    · have counted := complains_iff.mpr whole
      by_cases more : first = []
      · subst more
        simp [quiet]
      · have longer : opened ++ first ≠ opened := by simpa using more
        have shorter : opened ++ first ≠ first := by simpa using begun
        simp only [List.filter_singleton, counted, whole]
        cases checker.complains opened <;> cases checker.complains first <;> simp [begun, more]
    · have noOpened : ¬ checker.Complains opened := fun complains =>
        whole (complains.append_right first)
      have noFirst : ¬ checker.Complains first := fun complains =>
        whole (complains.append_left opened)
      rw [← complains_iff] at noOpened noFirst
      have noWhole := mt complains_iff.mp whole
      simp [noOpened, noFirst, noWhole, whole]
  · by_cases counts : checker.Complains opened
    · have trimmed := complains_dropReturn_iff.mpr counts
      simp [quiet, complains_iff.mpr counts, complains_iff.mpr trimmed, trimmed]
    · have trimmed := mt complains_dropReturn_iff.mp counts
      have noOpened := mt complains_iff.mp counts
      have noTrimmed := mt complains_iff.mp trimmed
      simp [quiet, noOpened, noTrimmed, trimmed]

/-- What is counted for joined streams is what is counted for each of them, unless the last line of
the first has no end and the line that comes of it complains and is another.
-/
theorem filter_lines_append_iff (ended : IsEnded front) (noFeed : '\n' ∉ opened) (begun : opened ≠ [])
    (text : List Char)
    : (lines (front ++ opened ++ text)).filter checker.complains
        = (lines (front ++ opened)).filter checker.complains
          ++ (lines text).filter checker.complains
      ↔ ¬ ∃ joined,
          (lines (opened ++ text)).head? = some joined
          ∧ joined ≠ opened
          ∧ checker.Complains joined := by
  rw [List.append_assoc, lines_ended_append front _ ended, lines_ended_append front opened ended,
    lines_of_not_mem noFeed begun]
  by_cases more : text = []
  · subst more
    simp [lines_of_not_mem noFeed begun, lines_nil]
  · obtain ⟨first, joined, rest, split, whole, follows⟩ := lines_opened_append noFeed begun more
    have law := @filter_joined_iff checker opened first joined begun follows
    have only : (∃ line, (joined :: rest).head? = some line ∧ line ≠ opened ∧ checker.Complains line)
        ↔ joined ≠ opened ∧ checker.Complains joined := by
      simp
    rw [split, whole, only, ← law, ← List.singleton_append (x := joined),
      ← List.singleton_append (x := first)]
    simp only [List.filter_append, List.append_assoc, List.append_cancel_left_eq]
    simp only [← List.append_assoc, List.append_cancel_right_eq]

/-- What is reported of both streams is what is reported of standard output and then of standard error,
exactly when no lines merge.
-/
theorem linesWith_combined_iff (checker : Checker) (output : ToolOutput)
    : linesWith checker.complaints output.combined
        = linesWith checker.complaints output.stdout ++ linesWith checker.complaints output.stderr
      ↔ ¬ checker.Merges output := by
  have inj : Function.Injective String.ofList := fun _ _ same => String.ofList_injective same
  simp only [linesWith_complaints, ← List.map_append, (List.map_injective_iff.mpr inj).eq_iff,
    ToolOutput.combined]
  constructor
  · rintro law ⟨front, opened, joined, split, ended, noFeed, begun, merged⟩
    rw [split] at law
    exact (filter_lines_append_iff ended noFeed begun output.stderr).mp law ⟨joined, merged⟩
  · intro apart
    obtain ⟨front, opened, split, ended, noFeed⟩ := exists_ended output.stdout
    by_cases begun : opened = []
    · rw [begun, List.append_nil] at split
      rw [split, lines_ended_append front _ ended, List.filter_append]
    · rw [split]
      refine (filter_lines_append_iff ended noFeed begun output.stderr).mpr ?_
      rintro ⟨joined, merged⟩
      exact apart ⟨front, opened, joined, split, ended, noFeed, begun, merged⟩

variable {R : Type} [Scale R]

/-- A tool whose exit code decides scores a run that it rejects by the number of lines of both streams
that complain, and reports the first of them.
-/
theorem interpret_eq_rejected {output : ToolOutput}
    (coded : checker = checkpolicy ∨ checker = plantUml)
    (fails : (checker.interpret output : Verdict R).ok = false)
    : ∃ detail,
        (checker.interpret output : Verdict R)
          = { (checker.rejected (linesWith checker.complaints output.combined) : Verdict R) with
              detail := detail } := by
  rcases coded with rfl | rfl
  all_goals
    simp only [interpret] at fails ⊢
    split at fails
    · simp at fails
    · rename_i unclean
      rw [if_neg unclean]
      exact ⟨_, rfl⟩

/-- The score of a run that is rejected follows from the number of lines of the joined streams that
complain, and the first of these lines are reported. They are the ones of standard output and then
those of standard error, as they were printed, exactly when no lines merge.
-/
theorem streams_reported_apart_iff (checker : Checker) (output : ToolOutput)
    (coded : checker = checkpolicy ∨ checker = plantUml)
    (fails : (checker.interpret output : Verdict R).ok = false)
    : (checker.interpret output : Verdict R).score
          = Scale.round 3 (Scale.clampUnit
              (partialCredit (linesWith checker.complaints output.combined).length))
      ∧ (checker.interpret output : Verdict R).errors
          = (linesWith checker.complaints output.combined).take checker.reportedErrors
      ∧ (linesWith checker.complaints output.combined
            = linesWith checker.complaints output.stdout
              ++ linesWith checker.complaints output.stderr
          ↔ ¬ checker.Merges output) := by
  obtain ⟨detail, same⟩ := interpret_eq_rejected coded fails
  refine ⟨?_, ?_, linesWith_combined_iff checker output⟩
  · rw [same]
    rfl
  · rw [same]
    rfl

/-- What a policy compiler puts out that complains on both streams: standard output ends without a line
feed, with which standard error starts.
-/
def complainingTwice : ToolOutput :=
  ⟨1, "loading a.te\na.te:9:ERROR 'syntax error'".toList, "\nundefined type vhal\n1 Error\n".toList⟩

theorem streams_reported_apart_iff_twice
    : (checkpolicy.interpret complainingTwice : Verdict Exact).ok = false
      ∧ ¬ checkpolicy.Merges complainingTwice
      ∧ (checkpolicy.interpret complainingTwice : Verdict Exact).errors
        = ["a.te:9:ERROR 'syntax error'", "undefined type vhal", "1 Error"] := by
  have fails : (checkpolicy.interpret complainingTwice : Verdict Exact).ok = false := by
    decide +kernel
  obtain ⟨_, reported, apart⟩ :=
    streams_reported_apart_iff (R := Exact) checkpolicy complainingTwice (.inl rfl) fails
  refine ⟨fails, apart.mp (by decide +kernel), reported.trans (by decide +kernel)⟩

/-- A host whose policy compiler complains on both streams, and does not end the line on the first. -/
def mergingTool : Rehearsal where
  installed tool :=
    if tool = .checkpolicy then
      some (.standIn ⟨encode "error: a".toList, encode "error: b\n".toList, false, some 1, 0⟩)
    else none
  limit := 1000
  hasScratch := true

/-- A policy of one line. -/
def plainPolicy : List Char := "type vhal;".toList

/-- Two errors are reported as one that neither stream has, and scored as one. -/
theorem errors_merged_across_streams
    : ∃ v : Validator Exact, ∃ output,
        v.run .checkpolicy ⟨"tools/checkpolicy", none⟩ (checkpolicy.prepare plainPolicy)
          = .completed output
        ∧ linesWith checkpolicy.complaints output.stdout = ["error: a"]
        ∧ linesWith checkpolicy.complaints output.stderr = ["error: b"]
        ∧ (v.validate .selinux plainPolicy).1
          = ⟨false, .fraction (73 / 100), ["error: aerror: b"], "checkpolicy",
              some "exit 1, 1 error line(s)"⟩ :=
  ⟨mergingTool.validator fun _ => Scale.whole 0, ⟨1, "error: a".toList, "error: b\n".toList⟩,
    by decide +kernel, by decide +kernel, by decide +kernel, by decide +kernel⟩

end Checker

end Vetting
