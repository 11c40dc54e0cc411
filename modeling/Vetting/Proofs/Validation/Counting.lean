import Mathlib.Algebra.GroupWithZero.Nat
import Mathlib.Logic.Function.Basic
import Vetting.Proofs.Validation.Paths
import Vetting.Score.Exact

/-! Counting validations. Each call counts up counters one at a time, in an order that its course
tells, while others do the same. Whatever the calls mix, the counters keep the accounts of the
calls that were made.
-/

namespace Vetting

variable {R : Type} [Scale R]

-----------------------------------------------------------------------------------------
-- What one call counts up
-----------------------------------------------------------------------------------------

/-- A counter that calls count up. -/
inductive Counter where
  | validations
  | nativeRuns
  | fallbacks
  | timeouts
  deriving DecidableEq, Repr

/-- What counts say about a counter. -/
def Counters.tally (counts : Counters) : Counter → Nat
  | .validations => counts.validations
  | .nativeRuns => counts.nativeRuns
  | .fallbacks => counts.fallbacks
  | .timeouts => counts.timeouts

/-- The counters that a validation counts up, in the order in which it comes by them. -/
def Course.bumps : Course → List Counter
  | blank | prechecked => [.validations]
  | completed => [.validations, .nativeRuns]
  | timedOut => [.validations, .nativeRuns, .timeouts]
  | heuristic .noTool | heuristic .noScratch => [.validations, .fallbacks]
  | heuristic .notStarted => [.validations, .nativeRuns, .fallbacks]

theorem Course.count_bumps (course : Course) (counter : Counter)
    : course.bumps.count counter = course.counters.tally counter := by
  cases course with
  | heuristic cause => cases cause <;> cases counter <;> decide
  | _ => cases counter <;> decide

/-- Nothing times out before it runs, and nothing runs before it is counted as a validation, at
whatever point of its course a validation is.
-/
theorem Course.count_take_bumps (course : Course) (made : Nat)
    : (course.bumps.take made).count .timeouts ≤ (course.bumps.take made).count .nativeRuns
      ∧ (course.bumps.take made).count .nativeRuns
        ≤ (course.bumps.take made).count .validations := by
  match made with
  | 0 => simp
  | 1 => cases course with
    | heuristic cause => cases cause <;> decide
    | _ => decide
  | 2 => cases course with
    | heuristic cause => cases cause <;> decide
    | _ => decide
  | made + 3 =>
      have whole : course.bumps.take (made + 3) = course.bumps := by
        apply List.take_of_length_le
        cases course with
        | heuristic cause => cases cause <;> simp [bumps]
        | _ => simp [bumps]
      rw [whole]
      cases course with
      | heuristic cause => cases cause <;> decide
      | _ => decide

/-- A call of a validator: for a validation, or for the verdict of the heuristic alone. -/
structure Call (R : Type) where
  validator : Validator R
  kind : ArtifactKind
  content : List Char
  byHeuristic : Bool

namespace Call

/-- The course of a call for a validation. -/
def course? (call : Call R) : Option Course :=
  if call.byHeuristic then none else some (call.validator.validate call.kind call.content).2

/-- Whether a call asks the heuristic about something. -/
def asksHeuristic (call : Call R) : Bool :=
  call.byHeuristic && !Text.allBlank call.content

/-- What a call counts for. -/
def counters (call : Call R) : Counters :=
  if call.byHeuristic then (call.validator.validateByHeuristic call.kind call.content).2
  else (call.validator.validate call.kind call.content).2.counters

/-- The counters that a call counts up, in order. -/
def bumps (call : Call R) : List Counter :=
  match call.course? with
  | some course => course.bumps
  | none => if call.asksHeuristic then [.fallbacks] else []

theorem count_bumps (call : Call R) (counter : Counter)
    : call.bumps.count counter = call.counters.tally counter := by
  cases alone : call.byHeuristic with
  | false => simp [bumps, counters, course?, alone, Course.count_bumps]
  | true =>
      cases empty : Text.allBlank call.content <;>
        simp [bumps, counters, course?, asksHeuristic, Validator.validateByHeuristic, alone,
          empty] <;>
        cases counter <;> rfl

theorem count_take_bumps (call : Call R) (made : Nat)
    : (call.bumps.take made).count .timeouts ≤ (call.bumps.take made).count .nativeRuns
      ∧ (call.bumps.take made).count .nativeRuns ≤ (call.bumps.take made).count .validations := by
  unfold bumps
  split
  · exact Course.count_take_bumps _ _
  · split <;> cases made <;> simp

end Call

-----------------------------------------------------------------------------------------
-- Counting while other calls count
-----------------------------------------------------------------------------------------

/-- The counters, each a word of 64 bits that starts again at zero when it is full. -/
abbrev Meter := Counter → UInt64

namespace Meter

/-- All counters at zero. -/
def zero : Meter := fun _ => 0

/-- Counts up one counter. -/
def bump (meter : Meter) (counter : Counter) : Meter :=
  Function.update meter counter (meter counter + 1)

/-- The counters after so many counts of each, however they were mixed. -/
def showing (counts : Counter → Nat) : Meter :=
  fun counter => UInt64.ofNat (counts counter)

theorem showing_bump (counts : Counter → Nat) (counter : Counter)
    : (showing counts).bump counter
      = showing (Function.update counts counter (counts counter + 1)) := by
  funext other
  by_cases same : other = counter
  · subst same
    simp [bump, showing, UInt64.ofNat_add]
  · simp [bump, showing, same]

theorem toNat_showing {counts : Counter → Nat} {counter : Counter}
    (small : counts counter < 2 ^ 64)
    : (showing counts counter).toNat = counts counter :=
  UInt64.toNat_ofNat_of_lt' small

/-- Calls since the counters were at zero, each with the number of counts that it has made, and
the counters that follow. A call may begin at any time, and any call that has counts left may make
the next one.
-/
inductive Since : List (Call R × Nat) → Meter → Prop where
  | reset : Since [] zero
  | begin {calls : List (Call R × Nat)} {meter : Meter} (call : Call R) (since : Since calls meter)
    : Since (calls ++ [(call, 0)]) meter
  | count (before : List (Call R × Nat)) {after : List (Call R × Nat)} {call : Call R}
    {made : Nat} {counter : Counter} {meter : Meter}
    (since : Since (before ++ (call, made) :: after) meter)
    (next : call.bumps[made]? = some counter)
    : Since (before ++ (call, made + 1) :: after) (meter.bump counter)

/-- How often calls have counted up a counter. -/
def made (calls : List (Call R × Nat)) (counter : Counter) : Nat :=
  (calls.map fun entry => (entry.1.bumps.take entry.2).count counter).sum

theorem made_count {before after : List (Call R × Nat)} {call : Call R} {past : Nat}
    {counter : Counter} (next : call.bumps[past]? = some counter)
    : made (before ++ (call, past + 1) :: after)
      = Function.update (made (before ++ (call, past) :: after)) counter
        (made (before ++ (call, past) :: after) counter + 1) := by
  funext other
  have longer : call.bumps.take (past + 1) = call.bumps.take past ++ [counter] := by
    rw [List.take_add_one, next]
    rfl
  by_cases same : other = counter
  · subst same
    simp only [made, List.map_append, List.map_cons, List.sum_append, List.sum_cons, longer,
      List.count_append, List.count_singleton_self, Function.update_self]
    omega
  · simp [made, longer, same, Ne.symm same]

/-- The counters show how often they were counted up, by induction on what happened since they
were at zero.
-/
theorem Since.showing {calls : List (Call R × Nat)} {meter : Meter} (since : Since calls meter)
    : meter = Meter.showing (made calls) := by
  induction since with
  | reset => rfl
  | begin call _ ih =>
      rw [ih]
      congr 1
      funext counter
      simp [made]
  | count _ _ next ih => rw [ih, made_count next, showing_bump]

/-- At no time are there more timeouts than runs, or more runs than validations. -/
theorem made_ordered (calls : List (Call R × Nat))
    : made calls .timeouts ≤ made calls .nativeRuns
      ∧ made calls .nativeRuns ≤ made calls .validations := by
  induction calls with
  | nil => simp [made]
  | cons entry calls ih =>
      have here := entry.1.count_take_bumps entry.2
      simp only [made, List.map_cons, List.sum_cons] at ih ⊢
      omega

-----------------------------------------------------------------------------------------
-- The accounts of finished calls
-----------------------------------------------------------------------------------------

/-- Whether a call has made all its counts. -/
def Finished (calls : List (Call R × Nat)) : Prop :=
  ∀ entry ∈ calls, entry.2 = entry.1.bumps.length

/-- How many calls took a course. -/
def taking (calls : List (Call R)) (course : Course) : Nat :=
  calls.countP fun call => call.course? == some course

/-- How many validations came to the heuristic. -/
def heuristicRuns (calls : List (Call R)) : Nat :=
  taking calls (.heuristic .noTool) + taking calls (.heuristic .noScratch) +
    taking calls (.heuristic .notStarted)

/-- The accounts of calls: every counter is the number of calls that took certain courses. -/
structure Balanced (calls : List (Call R)) (counts : Counter → Nat) : Prop where
  validations : counts .validations = calls.countP fun call => !call.byHeuristic
  courses
    : counts .validations
      = taking calls .blank + taking calls .prechecked + taking calls .completed +
        taking calls .timedOut + heuristicRuns calls
  nativeRuns
    : counts .nativeRuns
      = taking calls .completed + taking calls .timedOut + taking calls (.heuristic .notStarted)
  timeouts : counts .timeouts = taking calls .timedOut
  fallbacks : counts .fallbacks = heuristicRuns calls + calls.countP Call.asksHeuristic
  /-- What each call counts for, added up. -/
  totals : ∀ counter, counts counter = (calls.map fun call => call.counters.tally counter).sum

/-- A further call is entered into the accounts by the course it takes. -/
theorem Balanced.cons {calls : List (Call R)} {counts : Counter → Nat}
    (balanced : Balanced calls counts) (call : Call R)
    : Balanced (call :: calls) (fun counter => call.bumps.count counter + counts counter) := by
  obtain ⟨validations, courses, nativeRuns, timeouts, fallbacks, totals⟩ := balanced
  have entered : ∀ counter, call.bumps.count counter + counts counter
      = ((call :: calls).map fun call => call.counters.tally counter).sum := by
    intro counter
    simp [call.count_bumps, totals]
  simp only [heuristicRuns, taking] at courses nativeRuns timeouts fallbacks
  cases alone : call.byHeuristic with
  | false =>
      have took : call.course? = some (call.validator.validate call.kind call.content).2 := by
        simp [Call.course?, alone]
      generalize (call.validator.validate call.kind call.content).2 = course at took
      have asksNot : call.asksHeuristic = false := by simp [Call.asksHeuristic, alone]
      refine ⟨?_, ?_, ?_, ?_, ?_, entered⟩ <;>
        simp only [heuristicRuns, taking, List.countP_cons, Call.bumps, took, asksNot, alone] <;>
        clear entered totals
      all_goals
        cases course with
        | heuristic cause => cases cause <;> simp [Course.bumps] <;> omega
        | _ =>
            simp [Course.bumps]
            omega
  | true =>
      have tookNone : call.course? = none := by simp [Call.course?, alone]
      refine ⟨?_, ?_, ?_, ?_, ?_, entered⟩ <;>
        simp only [heuristicRuns, taking, List.countP_cons, Call.bumps, tookNone, alone] <;>
        clear entered totals
      all_goals cases call.asksHeuristic <;> simp <;> omega

theorem balanced_made {calls : List (Call R × Nat)} (finished : Finished calls)
    : Balanced (calls.map Prod.fst) (made calls) := by
  induction calls with
  | nil => exact ⟨rfl, rfl, rfl, rfl, rfl, fun _ => rfl⟩
  | cons entry calls ih =>
      have rest := ih fun other member => finished other (List.mem_cons_of_mem _ member)
      have whole : entry.1.bumps.take entry.2 = entry.1.bumps := by
        rw [finished entry List.mem_cons_self, List.take_length]
      have same : made (entry :: calls)
          = fun counter => entry.1.bumps.count counter + made calls counter := by
        funext counter
        simp [made, whole]
      rw [same]
      exact rest.cons entry.1

end Meter

/-- Every validation takes exactly one course, and its verdict names the tool where an installed
one had the last word and the heuristic of the kind everywhere else. However calls mix since the
counters were at zero, as long as no counter is full there are at no time more timeouts than runs
or more runs than validations, and once all calls are finished the counters are the accounts of
the courses that they took.
-/
theorem Validator.courses_accounted (v : Validator R) (ordinary : v.Ordinary)
    (kind : ArtifactKind) (content : List Char) (calls : List (Call R × Nat)) (meter : Meter)
    (since : Meter.Since calls meter)
    (small : ∀ counter, Meter.made calls counter < 2 ^ 64)
    : (∃ course verdict,
          v.validate kind content = (verdict, course)
          ∧ v.Takes kind content course verdict
          ∧ (∀ other otherVerdict,
              v.Takes kind content other otherVerdict
              → other = course ∧ otherVerdict = verdict)
          ∧ (v.ByTool kind course
            ↔ ∃ checker, kind.checker? = some checker ∧ verdict.tool = checker.label)
          ∧ (¬ v.ByTool kind course ↔ verdict.tool = kind.heuristicLabel))
      ∧ meter .timeouts ≤ meter .nativeRuns
      ∧ meter .nativeRuns ≤ meter .validations
      ∧ (Meter.Finished calls
        → Meter.Balanced (calls.map Prod.fst) fun counter => (meter counter).toNat) := by
  have shown : ∀ counter, (meter counter).toNat = Meter.made calls counter := by
    intro counter
    rw [since.showing, Meter.toNat_showing (small counter)]
  obtain ⟨fewTimeouts, fewRuns⟩ := Meter.made_ordered calls
  refine ⟨?_, ?_, ?_, ?_⟩
  · rcases validated : v.validate kind content with ⟨verdict, course⟩
    have takes := takes_iff.mpr validated
    refine ⟨course, verdict, rfl, takes, ?_, ?_⟩
    · intro other otherVerdict same
      have both := (takes_iff.mp same).symm.trans validated
      exact ⟨congrArg Prod.snd both, congrArg Prod.fst both⟩
    · obtain ⟨byTool, checker, known, named⟩ | ⟨byHeuristic, named⟩ := takes.tool ordinary
      · simp [byTool, known, named, (kind.heuristicLabel_ne_label checker).symm]
      · simp [byHeuristic, named, kind.heuristicLabel_ne_label]
  · rw [UInt64.le_iff_toNat_le, shown, shown]
    exact fewTimeouts
  · rw [UInt64.le_iff_toNat_le, shown, shown]
    exact fewRuns
  · intro finished
    simpa only [shown] using Meter.balanced_made finished

/-- A host on which every tool is there and takes too long. -/
def slowHost : Validator Exact :=
  { Validator.withoutTools fun _ => Scale.whole 0 with
    tools := fun _ => some "tool"
    run := fun _ _ _ => .timedOut 1 }

/-- A validation that times out. -/
def lateCall : Call Exact := ⟨slowHost, .cpp, ['x'], false⟩

/-- A question to the heuristic that comes in between. -/
def quickCall : Call Exact := ⟨slowHost, .cpp, ['x'], true⟩

theorem Validator.courses_accounted_mixed
    : ∃ meter : Meter,
        Meter.Since [(lateCall, 3), (quickCall, 1)] meter
        ∧ Meter.Balanced [lateCall, quickCall] fun counter => (meter counter).toNat := by
  have ordinary : slowHost.Ordinary := by
    intro kind acceptAt content verdict given
    exact (Except.ok.inj given).symm
  have small : ∀ counter, Meter.made [(lateCall, 3), (quickCall, 1)] counter < 2 ^ 64 := by
    intro counter
    cases counter <;> decide
  have finished : Meter.Finished [(lateCall, 3), (quickCall, 1)] := by
    intro entry member
    obtain rfl | rfl := by simpa using member
    · rfl
    · rfl
  have validated := (Meter.Since.reset.begin lateCall).count [] (by rfl)
  have ran := (validated.begin quickCall).count [] (by rfl)
  have asked := ran.count [(lateCall, 2)] (by rfl)
  have since := asked.count [] (by rfl)
  exact ⟨_, since,
    (Validator.courses_accounted slowHost ordinary .cpp ['x'] _ _ since small).2.2.2 finished⟩

end Vetting
