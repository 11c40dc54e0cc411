import Vetting.Promotion.Gate
import Vetting.Proofs.Promotion.Commit
import Vetting.Proofs.Promotion.ReportFile

/-! The runs of a gate: a draft is rejected when it has been inspected, or its files are put into
place; then the report is written.
-/

namespace Vetting.PromotionGate

variable {gate : PromotionGate} {now : Timestamp} {found : Inspection} {conduct : Conduct}
  {tree after : FileTree}

/-- A report comes of an inspection that rejects the draft, or of putting files into place. -/
inductive Decided (gate : PromotionGate) (now : Timestamp) (found : Inspection) (conduct : Conduct)
    (tree : FileTree)
    : PromotionReport → FileTree → Prop
  | inspected {stage} (failed : found.failedStage = some stage)
    : Decided gate now found conduct tree ((gate.reportOf now found).reject stage) tree
  | stopped {fault after} (passed : found.failedStage = none)
    (commit
      : (gate.route.commit gate.rules.requiredFiles).Yields conduct tree (.error fault) after)
    : Decided gate now found conduct tree
        ({ gate.reportOf now found with
            errors := (gate.reportOf now found).errors ++ [fault.message] }.reject .commit)
        after
  | committed {files after} (passed : found.failedStage = none)
    (commit
      : (gate.route.commit gate.rules.requiredFiles).Yields conduct tree (.ok files) after)
    : Decided gate now found conduct tree (accepted (gate.reportOf now found) files) after

theorem decided_of_yields {report : PromotionReport}
    (run : (gate.decide now found).Yields conduct tree report after)
    : gate.Decided now found conduct tree report after := by
  unfold decide at run
  simp only at run
  split at run
  · rename_i stage failed
    obtain ⟨rfl, rfl⟩ := FileProgram.yields_pure.mp run
    exact .inspected failed
  · rename_i passed
    obtain ⟨result, between, commit, finish⟩ := FileProgram.yields_bind.mp run
    cases result with
    | ok files =>
        obtain ⟨rfl, rfl⟩ := FileProgram.yields_pure.mp finish
        exact .committed passed commit
    | error fault =>
        obtain ⟨rfl, rfl⟩ := FileProgram.yields_pure.mp finish
        exact .stopped passed commit

/-- The path of the report is known beforehand. -/
theorem Decided.reportPath_eq {report : PromotionReport}
    (decided : gate.Decided now found conduct tree report after)
    : report.reportPath = (PromotionReport.pathIn gate.outputRoot).text := by
  cases decided <;> rfl

theorem Decided.wellFormed (lawful : conduct.Lawful) {report : PromotionReport}
    (decided : gate.Decided now found conduct tree report after) (wf : tree.WellFormed)
    : after.WellFormed := by
  cases decided with
  | inspected _ => exact wf
  | stopped _ commit => exact FileProgram.Yields.wellFormed lawful commit wf
  | committed _ commit => exact FileProgram.Yields.wellFormed lawful commit wf

/-- In a run, a report is decided, and then written. -/
theorem program_yields {outcome : Outcome}
    (run : (gate.program now found).Yields conduct tree outcome after)
    : ∃ report between answer,
        gate.Decided now found conduct tree report between
        ∧ (report.write gate.outputRoot).Yields conduct between answer after
        ∧ outcome.report = answer.map (fun path => { report with reportPath := path.text })
        ∧ outcome.counters = Counters.promotion report.ok := by
  unfold program at run
  obtain ⟨report, between, decided, run⟩ := FileProgram.yields_bind.mp run
  obtain ⟨answer, last, written, finish⟩ := FileProgram.yields_bind.mp run
  refine ⟨report, between, answer, decided_of_yields decided, ?_⟩
  cases answer with
  | ok path =>
      obtain ⟨rfl, rfl⟩ := FileProgram.yields_pure.mp finish
      exact ⟨written, rfl, rfl⟩
  | error fault =>
      obtain ⟨rfl, rfl⟩ := FileProgram.yields_pure.mp finish
      exact ⟨written, rfl, rfl⟩

/-- A report that a run returns is the one that was decided and written. -/
theorem returned_yields (lawful : conduct.Lawful) (wf : tree.WellFormed) {outcome : Outcome}
    (run : (gate.program now found).Yields conduct tree outcome after) {report : PromotionReport}
    (returned : outcome.report = .ok report)
    : ∃ between first root,
        gate.Decided now found conduct tree report between
        ∧ (Operation.createDirectories gate.outputRoot).Ends between (.ok ()) first
        ∧ report.Reported gate.outputRoot root first after := by
  obtain ⟨decidedReport, between, answer, decided, written, same, _⟩ := program_yields run
  cases answer with
  | error fault => exact absurd (returned.symm.trans same) (by simp [Except.map])
  | ok path =>
      obtain ⟨rfl, first, root, made, reported⟩ :=
        PromotionReport.write_yields lawful (decided.wellFormed lawful wf) written
      have eq : report
          = { decidedReport with
              reportPath := (PromotionReport.pathIn gate.outputRoot).text } :=
        Except.ok.inj (returned.symm.trans same)
      rw [← decided.reportPath_eq] at eq
      obtain rfl : report = decidedReport := eq
      exact ⟨between, first, root, decided, made, reported⟩

/-- A report of an accepted draft comes of putting its files into place. -/
theorem committed_of_returned (lawful : conduct.Lawful) (wf : tree.WellFormed) {outcome : Outcome}
    (run : (gate.program now found).Yields conduct tree outcome after) {report : PromotionReport}
    (returned : outcome.report = .ok report) (isAccepted : report.ok = true)
    : ∃ files between first root,
        found.failedStage = none
        ∧ report = accepted (gate.reportOf now found) files
        ∧ (gate.route.commit gate.rules.requiredFiles).Yields conduct tree (.ok files) between
        ∧ (Operation.createDirectories gate.outputRoot).Ends between (.ok ()) first
        ∧ report.Reported gate.outputRoot root first after := by
  obtain ⟨between, first, root, decided, made, reported⟩ := returned_yields lawful wf run returned
  cases decided with
  | inspected _ => exact absurd isAccepted (by simp [PromotionReport.reject])
  | stopped _ _ => exact absurd isAccepted (by simp [PromotionReport.reject])
  | committed passed commit => exact ⟨_, between, first, root, passed, rfl, commit, made, reported⟩

end Vetting.PromotionGate
