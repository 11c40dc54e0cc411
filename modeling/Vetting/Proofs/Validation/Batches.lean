import Vetting.Proofs.Validation.Counting
import Vetting.Validation.Evaluation

/-! Batches of evaluations. At most so many evaluations run at a time, those that run count and
finish in any order, and evaluations are returned in the order of the artifacts. However they are
scheduled, a batch comes to an end, returns the evaluation of each artifact at its place, and
leaves the counters where the courses of the validations put them.
-/

namespace Vetting

variable {R : Type}

-----------------------------------------------------------------------------------------
-- Scores by kind
-----------------------------------------------------------------------------------------

/-- Each kind has the blended score of the last evaluation of an artifact of that kind, and only
kinds that were evaluated have one.
-/
theorem mem_scoresByKind {evaluations : List (Evaluation R)} {kind : ArtifactKind} {score : R}
    : (kind, score) ∈ scoresByKind evaluations
      ↔ ∃ before last after,
          evaluations = before ++ last :: after
          ∧ last.kind = kind
          ∧ (∀ later ∈ after, later.kind ≠ kind)
          ∧ score = last.breakdown.blended := by
  simp only [scoresByKind, List.mem_filterMap, Option.map_eq_some_iff, Prod.mk.injEq,
    List.find?_eq_some_iff_append, beq_iff_eq, List.reverse_eq_append_iff, List.reverse_cons,
    List.append_assoc, List.singleton_append, Bool.not_eq_eq_eq_not, Bool.not_true,
    beq_eq_false_iff_ne]
  constructor
  · rintro ⟨_, -, last, ⟨same, after, before, split, others⟩, rfl, rfl⟩
    exact ⟨before.reverse, last, after.reverse, split, same,
      fun later member => others later (List.mem_reverse.mp member), rfl⟩
  · rintro ⟨before, last, after, split, same, others, rfl⟩
    exact ⟨kind, kind.mem_all, last,
      ⟨same, after.reverse, before.reverse, by simpa using split,
        fun later member => others later (List.mem_reverse.mp member)⟩, rfl, rfl⟩

theorem scoresByKind_kinds (evaluations : List (Evaluation R))
    : ((scoresByKind evaluations).map Prod.fst).Sublist ArtifactKind.all := by
  unfold scoresByKind
  induction ArtifactKind.all with
  | nil => exact .slnil
  | cons kind kinds ih =>
      rw [List.filterMap_cons]
      cases evaluations.reverse.find? fun e => e.kind == kind with
      | none => exact ih.cons _
      | some last => exact ih.cons_cons _

theorem tally_totalCounters (courses : List Course) (counter : Counter)
    : (totalCounters courses).tally counter
      = (courses.map fun course => course.counters.tally counter).sum := by
  have added : ∀ sum : Counters,
      (courses.foldl (fun sum course => sum + course.counters) sum).tally counter
        = sum.tally counter + (courses.map fun course => course.counters.tally counter).sum := by
    induction courses with
    | nil => simp
    | cons course courses ih =>
        intro sum
        have tally_add : (sum + course.counters).tally counter
            = sum.tally counter + course.counters.tally counter := by cases counter <;> rfl
        simp [ih, tally_add, Nat.add_assoc]
  rw [totalCounters, added]
  cases counter <;> simp [Counters.tally, Counters.zero]

-----------------------------------------------------------------------------------------
-- The steps of a batch
-----------------------------------------------------------------------------------------

/-- An evaluation in a batch, its result given: what there will be to return, and the course of
the validation, which tells what is counted.
-/
abbrev Job (R : Type) := Evaluation R × Course

/-- How far an evaluation is. -/
inductive Progress where
  | waiting
  /-- It runs, and has made so many counts. -/
  | running (made : Nat)
  | finished
  deriving DecidableEq, Repr

namespace Progress

/-- Whether an evaluation runs. -/
def isRunning : Progress → Bool
  | running _ => true
  | _ => false

/-- The counts that an evaluation has made, of those it makes. -/
def counted (bumps : List Counter) : Progress → List Counter
  | waiting => []
  | running made => bumps.take made
  | finished => bumps

/-- How many steps an evaluation is from its end. -/
def remaining (bumps : List Counter) : Progress → Nat
  | waiting => bumps.length + 2
  | running made => bumps.length - made + 1
  | finished => 0

end Progress

/-- A batch under way: its evaluations in order and how far each is, what has been returned, and
the counters.
-/
structure Batch (R : Type) where
  entries : List (Job R × Progress)
  returned : List (Evaluation R)
  meter : Meter

namespace Batch

/-- A batch before its first step. -/
def opening (jobs : List (Job R)) (meter : Meter) : Batch R :=
  ⟨jobs.map fun job => (job, .waiting), [], meter⟩

/-- Whether everything has been returned. -/
def Complete (batch : Batch R) : Prop :=
  batch.returned.length = batch.entries.length

/-- How many evaluations are in flight. -/
def inFlight (entries : List (Job R × Progress)) : Nat :=
  entries.countP fun entry => entry.2.isRunning

/-- What a batch may do next when at most `limit` evaluations may be in flight. The next
evaluation that waits may start when there is room, any that runs may count or finish, and the
next result is returned when it is there.
-/
inductive Step (limit : Nat) : Batch R → Batch R → Prop where
  | start (before : List (Job R × Progress)) {after : List (Job R × Progress)} {job : Job R}
    {returned : List (Evaluation R)} {meter : Meter}
    (inOrder : ∀ entry ∈ before, entry.2 ≠ .waiting)
    (room : inFlight (before ++ after) < limit)
    : Step limit ⟨before ++ (job, .waiting) :: after, returned, meter⟩
      ⟨before ++ (job, .running 0) :: after, returned, meter⟩
  | count (before : List (Job R × Progress)) {after : List (Job R × Progress)} {job : Job R}
    {made : Nat} {counter : Counter} {returned : List (Evaluation R)} {meter : Meter}
    (next : job.2.bumps[made]? = some counter)
    : Step limit ⟨before ++ (job, .running made) :: after, returned, meter⟩
      ⟨before ++ (job, .running (made + 1)) :: after, returned, meter.bump counter⟩
  | finish (before : List (Job R × Progress)) {after : List (Job R × Progress)} {job : Job R}
    {returned : List (Evaluation R)} {meter : Meter}
    : Step limit ⟨before ++ (job, .running job.2.bumps.length) :: after, returned, meter⟩
      ⟨before ++ (job, .finished) :: after, returned, meter⟩
  | yield {entries : List (Job R × Progress)} {job : Job R} {returned : List (Evaluation R)}
    {meter : Meter} (next : entries[returned.length]? = some (job, .finished))
    : Step limit ⟨entries, returned, meter⟩ ⟨entries, returned ++ [job.1], meter⟩

/-- A number of steps, one after another. -/
inductive Steps (limit : Nat) (first : Batch R) : Nat → Batch R → Prop where
  | none : Steps limit first 0 first
  | next {steps : Nat} {batch later : Batch R} (sofar : Steps limit first steps batch)
    (step : Step limit batch later)
    : Steps limit first (steps + 1) later

-----------------------------------------------------------------------------------------
-- What every step preserves
-----------------------------------------------------------------------------------------

/-- What holds of a batch of given evaluations at all times. -/
structure Sound (jobs : List (Job R)) (start : Meter) (batch : Batch R) : Prop where
  evaluations : batch.entries.map Prod.fst = jobs
  /-- No evaluation makes more counts than it has to make. -/
  within
    : ∀ entry ∈ batch.entries,
        ∀ made, entry.2 = .running made → made ≤ entry.1.2.bumps.length
  /-- What has been returned is what the first evaluations come to, in order. -/
  returned : batch.returned = (jobs.take batch.returned.length).map Prod.fst
  done : ∀ entry ∈ batch.entries.take batch.returned.length, entry.2 = .finished
  meter
    : ∀ counter,
        batch.meter counter
        = start counter
          + UInt64.ofNat
            (batch.entries.map fun entry => (entry.2.counted entry.1.2.bumps).count counter).sum

theorem sound_opening (jobs : List (Job R)) (meter : Meter)
    : Sound jobs meter (opening jobs meter) where
  evaluations := by simp [opening, Function.comp_def]
  within := by
    intro entry member made running
    obtain ⟨job, -, rfl⟩ := List.mem_map.mp member
    cases running
  returned := rfl
  done := by simp [opening]
  meter := by
    intro counter
    have uncounted : (jobs.map fun _ => 0).sum = 0 := by
      rw [List.map_const', List.sum_replicate_nat, Nat.mul_zero]
    simp only [opening, Progress.counted, List.map_map, Function.comp_def, List.count_nil,
      uncounted, UInt64.reduceOfNat, UInt64.add_zero]

variable {limit : Nat} {jobs : List (Job R)} {start : Meter} {batch later : Batch R}

/-- Moving one evaluation on keeps a batch sound when that evaluation was not done, makes no more
counts than it has to, and the counters go with it.
-/
theorem Sound.moved {before after : List (Job R × Progress)} {job : Job R}
    {progress further : Progress} {returned : List (Evaluation R)} {meter meter' : Meter}
    (sound : Sound jobs start ⟨before ++ (job, progress) :: after, returned, meter⟩)
    (undone : progress ≠ .finished)
    (within : ∀ made, further = .running made → made ≤ job.2.bumps.length)
    (counted
      : ∀ counter,
          ∃ gained,
            (further.counted job.2.bumps).count counter
              = (progress.counted job.2.bumps).count counter + gained
            ∧ meter' counter = meter counter + UInt64.ofNat gained)
    : Sound jobs start ⟨before ++ (job, further) :: after, returned, meter'⟩ where
  evaluations := by simpa using sound.evaluations
  within := by
    intro entry member made running
    obtain inBefore | rfl | inAfter := by simpa using member
    · exact sound.within entry (by simp [inBefore]) made running
    · exact within made running
    · exact sound.within entry (by simp [inAfter]) made running
  returned := sound.returned
  done := by
    -- An evaluation that is not done has not been returned, so all that have been come before it.
    have short : returned.length ≤ before.length := by
      by_contra long
      apply undone
      refine sound.done (job, progress) (List.mem_take_iff_getElem.mpr ⟨before.length, ?_, ?_⟩)
      · simp only [List.length_append, List.length_cons]
        omega
      · simp
    simpa only [List.take_append_of_le_length short] using sound.done
  meter := by
    intro counter
    obtain ⟨gained, more, moved⟩ := counted counter
    have old := sound.meter counter
    simp only [List.map_append, List.map_cons, List.sum_append, List.sum_cons] at old ⊢
    rw [moved, old, more, UInt64.add_assoc, ← UInt64.ofNat_add]
    congr 2
    omega

theorem Sound.step (sound : Sound jobs start batch) (step : Step limit batch later)
    : Sound jobs start later := by
  cases step with
  | start before inOrder room =>
      refine sound.moved (by simp) (by simp) fun counter => ⟨0, ?_, ?_⟩
      · simp [Progress.counted]
      · simp
  | @count before after job made counter returned meter next =>
      have inside := (List.getElem?_eq_some_iff.mp next).1
      refine sound.moved (by simp) ?_ fun other => ?_
      · rintro _ ⟨⟩
        exact inside
      · have longer : job.2.bumps.take (made + 1) = job.2.bumps.take made ++ [counter] := by
          rw [List.take_add_one, next]
          rfl
        by_cases same : other = counter
        · subst same
          exact ⟨1, by simp [Progress.counted, longer], by simp [Meter.bump]⟩
        · exact ⟨0, by simp [Progress.counted, longer, Ne.symm same],
            by simp [Meter.bump, same]⟩
  | finish before =>
      refine sound.moved (by simp) (by simp) fun counter => ⟨0, ?_, ?_⟩
      · simp [Progress.counted]
      · simp
  | @yield entries job returned meter next =>
      have jobAt : jobs[returned.length]? = some job := by
        rw [← sound.evaluations, List.getElem?_map, next]
        rfl
      refine ⟨sound.evaluations, sound.within, ?_, ?_, sound.meter⟩
      · have shorter := sound.returned
        simp only [List.length_append, List.length_singleton, List.take_add_one, jobAt,
          List.map_append] at shorter ⊢
        rw [← shorter]
        rfl
      · intro entry member
        simp only [List.length_append, List.length_singleton, List.take_add_one, next,
          List.mem_append] at member
        obtain earlier | newest := member
        · exact sound.done entry earlier
        · obtain rfl := by simpa using newest
          rfl

theorem Sound.steps {steps : Nat} (run : Steps limit (opening jobs start) steps batch)
    : Sound jobs start batch := by
  induction run with
  | none => exact sound_opening jobs start
  | next _ step ih => exact ih.step step

-----------------------------------------------------------------------------------------
-- How a batch ends
-----------------------------------------------------------------------------------------

/-- What is left to do in a batch. -/
def remaining (batch : Batch R) : Nat :=
  (batch.entries.map fun entry => entry.2.remaining entry.1.2.bumps).sum
  + (batch.entries.length - batch.returned.length)

/-- Every step leaves less to do. -/
theorem Step.remaining_lt (step : Step limit batch later)
    : later.remaining < batch.remaining := by
  cases step with
  | start before inOrder room => simp [remaining, Progress.remaining]
  | count before next =>
      have inside := (List.getElem?_eq_some_iff.mp next).1
      simp only [remaining, Progress.remaining, List.map_append, List.map_cons, List.sum_append,
        List.sum_cons, List.length_append, List.length_cons]
      omega
  | finish before => simp [remaining, Progress.remaining]
  | yield next =>
      have inside := (List.getElem?_eq_some_iff.mp next).1
      simp only [remaining, List.length_append, List.length_singleton]
      omega

theorem Steps.bounded {first : Batch R} {steps : Nat} (run : Steps limit first steps batch)
    : steps + batch.remaining ≤ first.remaining := by
  induction run with
  | none => omega
  | next _ step ih =>
      have less := step.remaining_lt
      omega

/-- An evaluation that runs can count, or it is finished. -/
theorem Sound.moves_on (sound : Sound jobs start batch) {entry : Job R × Progress}
    (member : entry ∈ batch.entries) (runs : entry.2.isRunning = true)
    : ∃ later, Step limit batch later := by
  obtain ⟨entries, returned, meter⟩ := batch
  obtain ⟨job, progress⟩ := entry
  obtain ⟨before, after, rfl⟩ := List.append_of_mem member
  cases progress with
  | running made =>
      have within := sound.within (job, .running made) member made rfl
      cases next : job.2.bumps[made]? with
      | some counter => exact ⟨_, .count before next⟩
      | none =>
          obtain rfl : made = job.2.bumps.length :=
            Nat.le_antisymm within (List.getElem?_eq_none_iff.mp next)
          exact ⟨_, .finish before⟩
  | waiting | finished => cases runs

/-- When nothing runs, the first evaluation that waits can be started. -/
theorem starts_when_idle (room : 0 < limit)
    (idle : ∀ entry ∈ batch.entries, entry.2.isRunning = false)
    {entry : Job R × Progress} (member : entry ∈ batch.entries) (waits : entry.2 = .waiting)
    : ∃ later, Step limit batch later := by
  obtain ⟨entries, returned, meter⟩ := batch
  cases first : entries.find? fun entry => entry.2 == .waiting with
  | none => exact absurd waits (by simpa using List.find?_eq_none.mp first entry member)
  | some entry =>
      obtain ⟨isWaiting, before, after, rfl, earlier⟩ := List.find?_eq_some_iff_append.mp first
      obtain ⟨job, progress⟩ := entry
      obtain rfl : progress = .waiting := by simpa using isWaiting
      refine ⟨_, .start before (fun entry member => by simpa using earlier entry member) ?_⟩
      have none : inFlight (before ++ after) = 0 := by
        apply List.countP_eq_zero.mpr
        intro entry member
        have place : entry ∈ before ++ (job, .waiting) :: after := by
          obtain inBefore | inAfter := List.mem_append.mp member
          · simp [inBefore]
          · simp [inAfter]
        simp [idle entry place]
      omega

/-- When all evaluations are finished, the next result can be returned. -/
theorem Sound.returns (sound : Sound jobs start batch) (unfinished : ¬ batch.Complete)
    (finished : ∀ entry ∈ batch.entries, entry.2 = .finished)
    : ∃ later, Step limit batch later := by
  obtain ⟨entries, returned, meter⟩ := batch
  have inside : returned.length < entries.length := by
    have short := congrArg List.length sound.returned
    simp only [List.length_map, List.length_take] at short
    have same := congrArg List.length sound.evaluations
    simp only [List.length_map] at same
    simp only [Complete] at unfinished
    omega
  refine ⟨⟨entries, returned ++ [entries[returned.length].1.1], meter⟩, .yield ?_⟩
  rw [List.getElem?_eq_getElem inside, ← finished _ (List.getElem_mem inside)]

/-- As long as there is something to return, a batch with room for one evaluation can go on: what
runs can count or finish, else what waits can start, and when all is finished the next result can
be returned.
-/
theorem Sound.goes_on (sound : Sound jobs start batch) (room : 0 < limit)
    (unfinished : ¬ batch.Complete)
    : ∃ later, Step limit batch later := by
  by_cases running : ∃ entry ∈ batch.entries, entry.2.isRunning = true
  · obtain ⟨entry, member, runs⟩ := running
    exact sound.moves_on member runs
  have idle : ∀ entry ∈ batch.entries, entry.2.isRunning = false := by simpa using running
  by_cases waiting : ∃ entry ∈ batch.entries, entry.2 = .waiting
  · obtain ⟨entry, member, waits⟩ := waiting
    exact starts_when_idle room idle member waits
  refine sound.returns unfinished fun entry member => ?_
  cases progress : entry.2 with
  | waiting => exact absurd ⟨entry, member, progress⟩ waiting
  | running made => simpa [Progress.isRunning, progress] using idle entry member
  | finished => rfl

/-- When everything has been returned, it is what the evaluations come to, in order, and the
counters have gone on by what their courses count for.
-/
theorem Sound.complete (sound : Sound jobs start batch) (complete : batch.Complete)
    : batch.returned = jobs.map Prod.fst
      ∧ ∀ counter,
          batch.meter counter
          = start counter
            + UInt64.ofNat ((totalCounters (jobs.map Prod.snd)).tally counter) := by
  have all : batch.returned.length = jobs.length := by
    rw [complete, ← sound.evaluations, List.length_map]
  constructor
  · rw [sound.returned, all, List.take_length]
  · intro counter
    rw [sound.meter counter, tally_totalCounters, ← sound.evaluations, List.map_map, List.map_map]
    congr 3
    apply List.map_congr_left
    intro entry member
    have finished := sound.done entry (by rwa [complete, List.take_length])
    simp [finished, Progress.counted, Course.count_bumps]

end Batch

variable [Scale R]

/-- However a batch is scheduled with at least one evaluation in flight at a time, it comes to an
end: it never takes more steps than there are to take, and it can go on as long as something is
not returned. Then it has returned one evaluation for each artifact, at its place. Each kind among
the artifacts has the blended score of its last evaluation, and no other kind has one. The
counters have gone on by what the courses of the validations count for, in whatever order the
evaluations were started, counted and finished.
-/
theorem Validator.batch_evaluated (jobs : List (Validator R × ArtifactInput)) (concurrency : Nat)
    (start : Meter) (steps : Nat) (batch : Batch R)
    (run
      : Batch.Steps (atLeastOne concurrency)
          (.opening (jobs.map fun job => job.1.evaluate job.2) start) steps batch)
    : steps ≤ (Batch.opening (jobs.map fun job => job.1.evaluate job.2) start).remaining
      ∧ (¬ batch.Complete → ∃ later, Batch.Step (atLeastOne concurrency) batch later)
      ∧ (batch.Complete
        → batch.returned = (jobs.map fun job => (job.1.evaluate job.2).1)
          ∧ (∀ v,
              (∀ job ∈ jobs, job.1 = v)
              → batch.returned = (v.evaluateAll (jobs.map Prod.snd)).map Prod.fst)
          ∧ (∀ kind score,
              (kind, score) ∈ scoresByKind batch.returned
              ↔ ∃ before last after,
                  jobs = before ++ last :: after
                  ∧ last.2.kind = kind
                  ∧ (∀ later ∈ after, later.2.kind ≠ kind)
                  ∧ score = (last.1.evaluate last.2).1.breakdown.blended)
          ∧ ((scoresByKind batch.returned).map Prod.fst).Nodup
          ∧ ∀ counter,
              batch.meter counter
              = start counter
                + UInt64.ofNat
                  ((totalCounters (jobs.map fun job => (job.1.evaluate job.2).2)).tally
                    counter)) := by
  have sound := Batch.Sound.steps run
  refine ⟨?_, ?_, ?_⟩
  · have bounded := run.bounded
    omega
  · exact sound.goes_on (Nat.le_max_right concurrency 1)
  · intro complete
    obtain ⟨returned, counted⟩ := sound.complete complete
    simp only [List.map_map, Function.comp_def] at returned counted
    refine ⟨returned, ?_, ?_, ?_, counted⟩
    · intro v same
      rw [returned, evaluateAll, List.map_map, List.map_map]
      apply List.map_congr_left
      intro job member
      rw [same job member]
      rfl
    · intro kind score
      rw [mem_scoresByKind, returned]
      constructor
      · rintro ⟨before, last, after, split, same, others, rfl⟩
        obtain ⟨jobsBefore, rest, rfl, rfl, tail⟩ := List.map_eq_append_iff.mp split
        obtain ⟨job, jobsAfter, rfl, rfl, rfl⟩ := List.map_eq_cons_iff.mp tail
        exact ⟨jobsBefore, job, jobsAfter, rfl, same,
          fun later member => others _ (List.mem_map_of_mem member), rfl⟩
      · rintro ⟨before, last, after, rfl, same, others, rfl⟩
        refine ⟨_, _, _, by rw [List.map_append, List.map_cons], same, ?_, rfl⟩
        intro later member
        obtain ⟨job, inAfter, rfl⟩ := List.mem_map.mp member
        exact others job inAfter
    · exact (scoresByKind_kinds _).nodup (by decide)

/-- Nothing, to be evaluated as source code. -/
def blankSource : ArtifactInput := ⟨.cpp, [], []⟩

/-- Two evaluations, of which the second finishes first. -/
theorem Validator.batch_evaluated_overtaken
    : ∃ batch : Batch Exact,
        batch.returned
          = ((withoutTools fun _ => Scale.whole 0).evaluateAll [blankSource, blankSource]).map
            Prod.fst
        ∧ (batch.meter .validations).toNat = 2 := by
  let v : Validator Exact := withoutTools fun _ => Scale.whole 0
  let job := v.evaluate blankSource
  have bumps : job.2.bumps = [.validations] := rfl
  have open2 : Batch.Steps (atLeastOne 2) (.opening [job, job] .zero) 0
      ⟨[(job, .waiting), (job, .waiting)], [], .zero⟩ := .none
  have one := open2.next (.start [] (by simp) (by decide))
  have both := one.next (.start [(job, .running 0)] (by simp) (by decide))
  have counted := both.next (.count [(job, .running 0)] (by rw [bumps]; rfl))
  have overtaken := counted.next (.finish [(job, .running 0)])
  have countedFirst := overtaken.next (.count [] (by rw [bumps]; rfl))
  have finished := countedFirst.next (.finish [])
  have run := (finished.next (.yield rfl)).next (.yield rfl)
  obtain ⟨-, -, ended⟩ := batch_evaluated [(v, blankSource), (v, blankSource)] 2 .zero _ _ run
  obtain ⟨-, returned, -, -, counters⟩ := ended rfl
  exact ⟨_, returned v (by simp), by rw [counters]; rfl⟩

end Vetting
