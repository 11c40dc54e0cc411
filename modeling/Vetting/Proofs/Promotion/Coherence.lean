import Vetting.Proofs.Files.Setup
import Vetting.Proofs.Promotion.GateRun
import Vetting.Proofs.Promotion.Inspecting
import Vetting.Proofs.Promotion.Rejection
import Vetting.Proofs.Promotion.ReportText
import Vetting.Proofs.Text.Pieces

/-! What a report says of a promotion. The stage that it names is the first one that the draft does
not pass, with all that this stage has found; its fields fit together; and its file is read back as
the report.
-/

namespace Vetting

open FileTree

/-- The fields of a report fit together. -/
structure PromotionReport.Coherent (report : PromotionReport) : Prop where
  stage : report.ok = true ↔ report.failedStage = none
  errors : report.failedStage = none ↔ report.errors = []
  nothing : report.ok = false → report.promoted = [] ∧ report.digests = []
  rejected : report.rejected ≠ [] ↔ report.failedStage = some .allowlist

namespace PromotionGate

variable {gate : PromotionGate} {tree after : FileTree} {listing : DraftListing}
  {found : Inspection} {stage : Option GateStage} {rejected errors : List String}

-----------------------------------------------------------------------------------------
-- The order of the stages
-----------------------------------------------------------------------------------------

/-- There is no directory for the draft, it cannot be listed, or it holds nothing. -/
def Undiscovered (gate : PromotionGate) (tree : FileTree) : Prop :=
  tree.isDirectory gate.draftRoot = false
  ∨ (∃ fault, DraftListing.collect tree gate.draftRoot = .error fault)
  ∨ ∃ listing,
      DraftListing.collect tree gate.draftRoot = .ok listing
      ∧ listing.files = []
      ∧ listing.refused = []

theorem undiscovered_iff : gate.Undiscovered tree ↔ ¬ ∃ listing, gate.Discovered tree listing := by
  constructor
  · rintro (noDirectory | ⟨fault, failed⟩ | ⟨listing, collected, noFiles, noneRefused⟩) ⟨other, found⟩
    · simp [found.directory] at noDirectory
    · simp [found.collected] at failed
    · obtain rfl := Except.ok.inj (found.collected.symm.trans collected)
      exact found.holds.elim (fun some => some noFiles) (fun some => some noneRefused)
  · intro none
    by_cases directory : tree.isDirectory gate.draftRoot = true
    · refine Or.inr ?_
      cases collected : DraftListing.collect tree gate.draftRoot with
      | error fault => exact Or.inl ⟨fault, rfl⟩
      | ok listing =>
          refine Or.inr ⟨listing, rfl, ?_⟩
          by_contra holds
          exact none ⟨listing, directory, collected, not_and_or.mp holds⟩
    · exact Or.inl (by simpa using directory)

/-- The stages that only read are passed in their order: the first one that a draft does not pass is
told, with what it has found.
-/
structure StageOrder (gate : PromotionGate) (tree : FileTree) (stage : Option GateStage)
    (rejected errors : List String)
    : Prop where
  discovery : stage = some .discovery ↔ gate.Undiscovered tree
  allowlist
    : ∀ listing, gate.Discovered tree listing → (stage = some .allowlist ↔ ¬ gate.AllAllowed listing)
  outside
    : ∀ listing,
        gate.Discovered tree listing
        → ¬ gate.AllAllowed listing
        → rejected.Pairwise (· ≤ ·)
          ∧ rejected.Perm
              (listing.refused.map Prod.fst
              ++ listing.files.filter fun path => !gate.rules.allows path)
  requiredFiles
    : ∀ listing,
        gate.Discovered tree listing
        → gate.AllAllowed listing
        → (stage = some .requiredFiles ↔ ¬ gate.AllPresent listing)
  absent
    : ∀ listing,
        gate.Discovered tree listing
        → gate.AllAllowed listing
        → ∀ path ∈ gate.rules.requiredFiles,
            path ∉ listing.files → ∃ error ∈ errors, path.toList <:+: error.toList
  invariants
    : ∀ listing,
        gate.Discovered tree listing
        → gate.AllAllowed listing
        → gate.AllPresent listing
        → (stage = some .invariants ↔ ¬ gate.ChecksPass tree)

/-- A draft that is not discovered passes no stage. -/
theorem StageOrder.of_undiscovered (none : ¬ ∃ listing, gate.Discovered tree listing)
    : gate.StageOrder tree (some .discovery) rejected errors := by
  have never {listing : DraftListing} : ¬ gate.Discovered tree listing :=
    fun found => none ⟨listing, found⟩
  exact ⟨by simp [undiscovered_iff.mpr none], fun _ found => absurd found never,
    fun _ found => absurd found never, fun _ found => absurd found never,
    fun _ found => absurd found never, fun _ found => absurd found never⟩

/-- What is told of the stages of a draft with one listing. -/
theorem StageOrder.of_discovered (found : gate.Discovered tree listing)
    (past : stage ≠ some .discovery)
    (allowlist : stage = some .allowlist ↔ ¬ gate.AllAllowed listing)
    (outside : ¬ gate.AllAllowed listing → rejected = gate.disallowed listing)
    (requiredFiles
      : gate.AllAllowed listing → (stage = some .requiredFiles ↔ ¬ gate.AllPresent listing))
    (absent
      : gate.AllAllowed listing
        → ¬ gate.AllPresent listing
        → errors
          = ["Missing required draft files: " ++ Text.joinWith ", " (gate.missing listing)])
    (invariants
      : gate.AllAllowed listing
        → gate.AllPresent listing
        → (stage = some .invariants ↔ ¬ gate.ChecksPass tree))
    : gate.StageOrder tree stage rejected errors := by
  -- A draft has one listing, so that what is known of this one holds of any.
  have same : ∀ other, gate.Discovered tree other → other = listing :=
    fun _ also => also.unique found
  have discovered : ¬ gate.Undiscovered tree := fun none => undiscovered_iff.mp none ⟨listing, found⟩
  refine ⟨iff_of_false past discovered, ?_, ?_, ?_, ?_, ?_⟩
  · intro other also
    exact same other also ▸ allowlist
  · intro other also notAllowed
    obtain rfl := same other also
    exact outside notAllowed ▸ ⟨gate.disallowed_sorted other, gate.disallowed_perm other⟩
  · intro other also allowed
    obtain rfl := same other also
    exact requiredFiles allowed
  · intro other also allowed path required missing
    obtain rfl := same other also
    refine ⟨_, absent allowed (fun all => missing (all path required)) ▸ List.mem_singleton_self _, ?_⟩
    rw [String.toList_append]
    exact (Text.infix_joinWith (mem_missing.mpr ⟨required, missing⟩)).trans
      (List.suffix_append _ _).isInfix
  · intro other also allowed present
    obtain rfl := same other also
    exact invariants allowed present

/-- A draft that passes all stages that only read is not rejected by them. -/
theorem StageOrder.of_passed (found : gate.Discovered tree listing)
    (allowed : gate.AllAllowed listing) (present : gate.AllPresent listing)
    (checked : gate.ChecksPass tree) (past : stage = none ∨ stage = some .commit)
    : gate.StageOrder tree stage rejected errors := by
  refine .of_discovered found ?_ ?_ ?_ ?_ ?_ ?_ <;> rcases past with rfl | rfl <;>
    simp [allowed, present, checked]

/-- An inspection tells of the stages in their order, by cases on what it says. -/
theorem Inspected.stageOrder (seen : gate.Inspected tree found)
    : gate.StageOrder tree found.failedStage found.rejected found.errors := by
  cases seen with
  | undiscovered none => exact .of_undiscovered none
  | disallowed found outside =>
      refine .of_discovered found ?_ ?_ ?_ ?_ ?_ ?_ <;> simp [rejectDisallowed, outside]
  | missing found allowed absent =>
      refine .of_discovered found ?_ ?_ ?_ ?_ ?_ ?_ <;>
        simp [Inspection.reject, allowed, absent]
  | unchecked found allowed present stopped =>
      have unpassed : ¬ gate.ChecksPass tree := by simp [ChecksPass, stopped]
      refine .of_discovered found ?_ ?_ ?_ ?_ ?_ ?_ <;>
        simp [Inspection.reject, allowed, present, unpassed]
  | faulty found allowed present checked bad =>
      have unpassed : ¬ gate.ChecksPass tree := by simp [ChecksPass, checked, bad]
      refine .of_discovered found ?_ ?_ ?_ ?_ ?_ ?_ <;> simp [allowed, present, unpassed]
  | passed found allowed present checked good =>
      exact .of_passed found allowed present ⟨_, checked, good⟩ (Or.inl rfl)

/-- What is found by an inspection that rejects a draft: errors, and paths where these are not
allowed.
-/
theorem Inspected.coherent (seen : gate.Inspected tree found)
    : (found.failedStage = none ↔ found.errors = [])
      ∧ (found.rejected ≠ [] ↔ found.failedStage = some .allowlist) := by
  cases seen with
  | @disallowed listing _ outside =>
      have some : gate.disallowed listing ≠ [] := fun none => outside (disallowed_eq_nil.mp none)
      simp [rejectDisallowed, some]
  | faulty _ _ _ _ bad => simp [bad]
  | _ => simp [Inspection.reject]

-----------------------------------------------------------------------------------------
-- Reports
-----------------------------------------------------------------------------------------

variable {now : Timestamp} {conduct : Conduct} {report : PromotionReport} {outcome : Outcome}

/-- The last stage is told by a report when files were to be put into place, and this has failed. -/
def CommitTold (gate : PromotionGate) (conduct : Conduct) (tree : FileTree)
    (stage : Option GateStage)
    : Prop :=
  ∀ listing,
    gate.Discovered tree listing
    → gate.AllAllowed listing
    → gate.AllPresent listing
    → gate.ChecksPass tree
    → ∃ result between,
        (gate.route.commit gate.rules.requiredFiles).Yields conduct tree result between
        ∧ (stage = some .commit ↔ ∃ fault, result = .error fault)
        ∧ (stage = none ↔ ∃ files, result = .ok files)

/-- The report that is decided tells of the stages in their order. -/
theorem Decided.stageOrder (decided : gate.Decided now (gate.inspect tree) conduct tree report after)
    : gate.StageOrder tree report.failedStage report.rejected report.errors := by
  have seen := (gate.inspected tree).stageOrder
  cases decided with
  | inspected failed =>
      rw [failed] at seen
      exact seen
  | stopped passed _ =>
      obtain ⟨listing, findings, found, allowed, present, checked, good, _⟩ := passed_of_inspect passed
      exact .of_passed found allowed present ⟨findings, checked, good⟩ (Or.inr rfl)
  | committed passed _ =>
      rw [passed] at seen
      exact seen

theorem Decided.commitTold (decided : gate.Decided now (gate.inspect tree) conduct tree report after)
    : gate.CommitTold conduct tree report.failedStage := by
  intro listing found allowed present ⟨findings, checked, good⟩
  have passes : (gate.inspect tree).failedStage = none := by
    rw [inspect_of_passed found allowed present checked good]
  cases decided with
  | inspected failed => exact absurd (failed.symm.trans passes) (by simp)
  | @stopped fault _ _ commit => exact ⟨_, _, commit, by simp [PromotionReport.reject]⟩
  | @committed files _ passed commit =>
      exact ⟨_, _, commit, by simp [accepted, reportOf, PromotionReport.undecided]⟩

/-- The fields of the report that is decided fit together, by cases on how it was decided. -/
theorem Decided.coherent (decided : gate.Decided now (gate.inspect tree) conduct tree report after)
    : report.Coherent := by
  obtain ⟨errors, rejected⟩ := (gate.inspected tree).coherent
  cases decided with
  | inspected failed =>
      rw [failed] at errors rejected
      exact ⟨by simp [PromotionReport.reject], errors, fun _ => ⟨rfl, rfl⟩, rejected⟩
  | stopped passed _ =>
      have none : (gate.inspect tree).rejected = [] := by
        by_contra some
        exact absurd (passed.symm.trans (rejected.mp some)) (by simp)
      exact ⟨by simp [PromotionReport.reject], by simp [PromotionReport.reject],
        fun _ => ⟨rfl, rfl⟩, by simp [PromotionReport.reject, reportOf, none]⟩
  | committed passed _ =>
      rw [passed] at errors rejected
      exact ⟨by simp [accepted, reportOf, PromotionReport.undecided], errors,
        fun stopped => absurd stopped (by simp [accepted]), rejected⟩

/-- The digests of the report that is decided are sorted, and it has the time of the promotion. -/
theorem Decided.readable (decided : gate.Decided now found conduct tree report after)
    : PromotionReport.Sorted report.digests ∧ report.generatedAt = now := by
  cases decided with
  | committed _ _ => exact ⟨PromotionReport.sorted_sortedEntries _, rfl⟩
  | _ => exact ⟨List.Pairwise.nil, rfl⟩

/-- A promotion is counted once. -/
theorem counters_promotion (ok : Bool)
    : (Counters.promotion ok).accepted + (Counters.promotion ok).rejected = 1
      ∧ ((Counters.promotion ok).accepted = 1 ↔ ok = true) := by
  cases ok <;> decide

/-- A promotion that returns a report counts as that report tells. -/
theorem counters_of_returned (run : (gate.program now found).Yields conduct tree outcome after)
    (returned : outcome.report = .ok report)
    : outcome.counters = Counters.promotion report.ok := by
  obtain ⟨decided, _, answer, _, _, same, counters⟩ := program_yields run
  cases answer with
  | error fault => exact absurd (returned.symm.trans same) (by simp [Except.map])
  | ok path =>
      obtain rfl := Except.ok.inj (returned.symm.trans same)
      exact counters

/-- Every promotion counts once. A report that it returns tells the first stage that the draft has
not passed, its fields fit together, and it is read back along every path that leads to its file.
Its own path does so, unless the report has taken the place of a link through which this path had
passed, so that it leads nowhere any more.
-/
theorem coherent_report (wf : tree.WellFormed) (valid : now.isValid = true)
    (run : (gate.program now (gate.inspect tree)).Yields .any tree outcome after)
    : outcome.counters.accepted + outcome.counters.rejected = 1
      ∧ ∀ report,
          outcome.report = .ok report
          → gate.StageOrder tree report.failedStage report.rejected report.errors
            ∧ gate.CommitTold .any tree report.failedStage
            ∧ report.Coherent
            ∧ (outcome.counters.accepted = 1 ↔ report.ok = true)
            ∧ ∃ between first root,
                gate.Decided now (gate.inspect tree) .any tree report between
                ∧ (Operation.createDirectories gate.outputRoot).Ends between (.ok ()) first
                ∧ report.Reported gate.outputRoot root first after
                ∧ (∀ path,
                    after.resolve true path = .ok (root ++ [PromotionReport.name])
                    → PromotionReport.read after path = .ok (some report))
                ∧ (PromotionReport.read after (PromotionReport.pathIn gate.outputRoot)
                    = .ok (some report)
                  ∨ (∃ target, first.get? (root ++ [PromotionReport.name]) = some (.link target))
                    ∧ ∀ place,
                        after.resolve false (PromotionReport.pathIn gate.outputRoot)
                        ≠ .ok place) := by
  constructor
  · obtain ⟨report, _, _, _, _, _, counters⟩ := program_yields run
    rw [counters]
    exact (counters_promotion report.ok).1
  intro report returned
  have counters := counters_of_returned run returned
  obtain ⟨between, first, root, decided, made, reported⟩ :=
    returned_yields Conduct.lawful_any wf run returned
  obtain ⟨sorted, time⟩ := decided.readable
  rw [← time] at valid
  refine ⟨decided.stageOrder, decided.commitTold, decided.coherent, ?_, between, first, root, decided,
    made, reported, fun _ => reported.read_along sorted valid, reported.ownPath sorted valid⟩
  rw [counters]
  exact (counters_promotion report.ok).2

/-- A point in time. -/
def someTime : Timestamp := ⟨2024, 2, 29, 23, 59, 60, 0⟩

/-- When files cannot be put into place, the report tells this stage. -/
theorem coherent_report_blocked
    : ∃ report,
        (nestedGate.run someTime blockedTree).1.report = .ok report
        ∧ report.failedStage = some .commit
        ∧ nestedGate.StageOrder blockedTree report.failedStage report.rejected report.errors
        ∧ nestedGate.CommitTold .any blockedTree report.failedStage
        ∧ report.Coherent
        ∧ (nestedGate.run someTime blockedTree).1.counters.accepted ≠ 1 := by
  have wf := Edit.wellFormed_applyAll wellFormed_empty blockedTree_made
  have run := FileProgram.yields_run
    (nestedGate.program someTime (nestedGate.inspect blockedTree)) wf
  have decided
      : ((nestedGate.program someTime ⟨[], [], [], none⟩).run blockedTree).1.report.toOption.map
          PromotionReport.failedStage
        = some (some .commit) := by
    decide +kernel
  rw [← inspect_blockedTree] at decided
  unfold PromotionGate.run
  obtain ⟨report, returned, stage⟩ := Except.toOption_map_eq_some.mp decided
  obtain ⟨_, told⟩ := coherent_report wf (by decide) run
  obtain ⟨order, commit, coherent, counted, _⟩ := told report returned
  refine ⟨report, returned, stage, order, commit, coherent, fun one => ?_⟩
  have passed := coherent.stage.mp (counted.mp one)
  exact absurd (stage.symm.trans passed) (by simp)

/-- A gate whose output directory has the name of a report. -/
def linkedGate : PromotionGate where
  outputRoot := .ofString "PROMOTION_REPORT.json"
  draftRoot := .ofString "d"
  rules := ⟨["a"], ["a"], [], []⟩

/-- A tree with a link of that name to the directory in which it stands. -/
@[irreducible] def linkedTree : FileTree :=
  (Edit.apply .empty (.makeLink (.ofString "PROMOTION_REPORT.json") (.ofString "."))).toOption.getD
    .empty

/-- A report that takes the place of a link on its own way is not read back. -/
theorem unread_when_link_replaced
    : ∃ report,
        (linkedGate.run someTime linkedTree).1.report = .ok report
        ∧ PromotionReport.read (linkedGate.run someTime linkedTree).2
            (PromotionReport.pathIn linkedGate.outputRoot)
          ≠ .ok (some report) := by
  have returned
      : (linkedGate.run someTime linkedTree).1.report.toOption.map PromotionReport.ok
        = some false := by
    decide +kernel
  have unread
      : (PromotionReport.read (linkedGate.run someTime linkedTree).2
          (PromotionReport.pathIn linkedGate.outputRoot)).toOption
        = none := by
    decide +kernel
  obtain ⟨report, returned, _⟩ := Except.toOption_map_eq_some.mp returned
  refine ⟨report, returned, fun read => ?_⟩
  rw [read] at unread
  exact absurd unread (by simp [Except.toOption])

end PromotionGate

end Vetting
