import Vetting.Proofs.Promotion.Acceptance
import Vetting.Proofs.Promotion.Rejection

/-! Promotions without a report. When no report can be written, nothing is undone any more: a draft
that was rejected has left the tree as it was, but the files of an accepted draft stay where they
were put.
-/

namespace Vetting

open FileTree PromotionGround

-----------------------------------------------------------------------------------------
-- Reports that cannot be written
-----------------------------------------------------------------------------------------

namespace PromotionReport

variable {conduct : Conduct} {report : PromotionReport} {outputRoot : Path} {tree after : FileTree}

/-- When a report cannot be written, nothing is left of it but directories that have been made on the
way to the output directory.
-/
theorem write_error (lawful : conduct.Lawful) (removes : conduct.RemovesFiles)
    (wf : tree.WellFormed) {fault : PromotionFault}
    (run : (report.write outputRoot).Yields conduct tree (.error fault) after)
    : ∃ made first,
        (Operation.createDirectories outputRoot).Ends tree made first
        ∧ after.here = first.here
        ∧ ∀ place, after.get? place = first.get? place := by
  obtain ⟨_, _, made⟩ | ⟨first, made, wrote⟩ := yields_write run
  · exact ⟨_, after, lawful _ _ _ _ made, rfl, fun _ => rfl⟩
  have made := lawful _ _ _ _ made
  refine ⟨_, first, made, ?_⟩
  obtain ⟨_, _, wrote⟩ | ⟨written, second, wrote, moved⟩ := wrote
  · obtain rfl := lawful _ _ _ _ wrote
    exact ⟨rfl, fun _ => rfl⟩
  obtain ⟨impossible, _⟩ | ⟨_, third, answer, _, moved, removed⟩ := moved
  · exact absurd impossible (by simp)
  obtain ⟨rest, noSlash, rfl, wrote⟩ := lawful _ _ _ _ wrote
  obtain rfl := lawful _ _ _ _ moved
  obtain rfl := removes _ _ _ _ removed
  exact same_of_removed (made.wellFormed wf) (isName_temporary noSlash) wrote
    (lawful _ _ _ _ removed)

end PromotionReport

-----------------------------------------------------------------------------------------
-- Runs that return no report
-----------------------------------------------------------------------------------------

namespace PromotionGate

variable {gate : PromotionGate} {tree after : FileTree} {name : Bytes}

/-- A tree is as it was before a promotion, but for directories on the ways of the promotion. -/
structure Spared (gate : PromotionGate) (tree after : FileTree) : Prop where
  kept : ∀ place entry, tree.get? place = some entry → after.get? place = some entry
  added
    : ∀ place entry,
        tree.get? place = none
        → after.get? place = some entry
        → entry.isDirectory
          ∧ ∃ way ∈ gate.ways, tree.Toward (gate.outputRoot.start tree.here) way place

/-- A required file stands where its path leads: a regular file, whose bytes have the digest of those
that the draft had.
-/
def Delivered (gate : PromotionGate) (tree after : FileTree) (path : String) : Prop :=
  ∃ source content target place copy mode,
    SafePath.resolve gate.draftRoot path = .ok source
    ∧ tree.readFile source = .ok content
    ∧ SafePath.resolve gate.outputRoot path = .ok target
    ∧ after.lookup false target = .ok (place, .file copy mode)
    ∧ Sha256.hexDigest copy = Sha256.hexDigest content

/-- A run that returns no report has decided on one that could not be written. -/
theorem unreturned_yields {conduct : Conduct} {now : Timestamp} {found : Inspection}
    (lawful : conduct.Lawful) (removes : conduct.RemovesFiles) (wf : tree.WellFormed)
    {outcome : Outcome} (run : (gate.program now found).Yields conduct tree outcome after)
    {fault : PromotionFault} (failed : outcome.report = .error fault)
    : ∃ report between made first,
        gate.Decided now found conduct tree report between
        ∧ outcome.counters = Counters.promotion report.ok
        ∧ (Operation.createDirectories gate.outputRoot).Ends between made first
        ∧ after.here = first.here
        ∧ ∀ place, after.get? place = first.get? place := by
  obtain ⟨report, between, answer, decided, written, same, counters⟩ := program_yields run
  cases answer with
  | ok path => exact absurd (failed.symm.trans same) (by simp [Except.map])
  | error stopped =>
      obtain ⟨made, first, made, same⟩ :=
        PromotionReport.write_error lawful removes (decided.wellFormed lawful wf) written
      exact ⟨report, between, _, first, decided, counters, made, same⟩

/-- A tree with nothing new but directories has been spared. -/
theorem Fresh.spared (fresh : gate.Fresh tree name) (wf : tree.WellFormed) {first : FileTree}
    (clean : (fresh.ground wf).Clean first)
    (same : ∀ place, after.get? place = first.get? place)
    : gate.Spared tree after := by
  constructor
  · intro place entry found
    rw [same]
    exact clean.grown.keeps place entry (clear_singleton.mpr (fresh.clear_of_get? wf found)) found
  · intro place entry free found
    rw [same] at found
    obtain ⟨isDirectory, _, way⟩ := clean.grown.adds place entry
      (clear_singleton.mpr (clean.clear place entry found)) free found
    exact ⟨isDirectory, way⟩

/-- Files that have been put into place are delivered where all that stood then still stands. -/
theorem delivered_of_commit {conduct : Conduct} (wf : tree.WellFormed) (valid : gate.rules.Valid)
    (unparked : gate.Unparked) (unlinked : gate.Unlinked tree) (lawful : conduct.Lawful)
    (passed : (gate.inspect tree).failedStage = none) {files : List StagedFile}
    {between : FileTree}
    (commit
      : (gate.route.commit gate.rules.requiredFiles).Yields conduct tree (.ok files) between)
    (wfAfter : after.WellFormed) (here : after.here = between.here)
    (keeps : ∀ place entry, between.get? place = some entry → after.get? place = some entry)
    : ∀ path ∈ gate.rules.requiredFiles, gate.Delivered tree after path := by
  obtain ⟨listing, findings, _, _, _, checked, _, _⟩ := passed_of_inspect passed
  have readable := readable_of_findings checked
  obtain ⟨name, fresh, site, same, verified, placed⟩ :=
    commit_ok wf valid unparked unlinked readable lawful commit
  obtain ⟨base, outputRoot, _⟩ := Fresh.ground_eq same
  intro path required
  obtain ⟨file, member, verified⟩ := verified.partner_right path required
  obtain rfl := verified.path_eq
  obtain ⟨source, content, resolved, read⟩ := readable file.path required
  have member := List.mem_reverse.mpr member
  obtain ⟨copy, mode, found, digest⟩ := placed.settled file member
  -- Whatever of the report has been written, links and directories on the way to the file still stand.
  have landed : site.Landed file after :=
    (placed.landed file member).retained placed.like fun place entry _ _ found =>
      keeps place entry found
  have stands := PromotionSite.lookup_filePlace wfAfter (here.trans placed.like.here)
    verified.toBinds landed (keeps _ _ found)
  refine ⟨source, content, file.target, _, copy, mode, resolved, read, ?_, stands, ?_⟩
  · rw [← outputRoot]
    exact SafePath.resolve_eq_ok.mpr ⟨verified.nonempty, verified.target⟩
  · rw [← digest, digest_of_verified verified resolved (base ▸ read)]

/-- When no report can be written of a promotion, the promotion has been counted all the same. If it
counts as rejected, the tree is as it was but for directories. If it counts as accepted, the tree is as
it was after the files had been put into place: where no link turns off, each of them stands where it
belongs, whatever stood there before.
-/
theorem unreported_promotion {now : Timestamp} {outcome : Outcome} {fault : PromotionFault}
    (wf : tree.WellFormed) (fresh : gate.Fresh tree name) (unparked : gate.Unparked)
    (run
      : (gate.program now (gate.inspect tree)).Yields
          (.dependable (gate.outputRoot.join name)) tree outcome after)
    (failed : outcome.report = .error fault)
    : outcome.counters = Counters.promotion false ∧ gate.Spared tree after
      ∨ outcome.counters = Counters.promotion true
        ∧ ∃ files between,
            (gate.route.commit gate.rules.requiredFiles).Yields
              (.dependable (gate.outputRoot.join name)) tree (.ok files) between
            ∧ (∀ place entry, between.get? place = some entry → after.get? place = some entry)
            ∧ (gate.rules.validate = .ok () ∧ gate.Unlinked tree
              → ∀ path ∈ gate.rules.requiredFiles, gate.Delivered tree after path) := by
  have lawful := Conduct.lawful_dependable (gate.outputRoot.join name)
  obtain ⟨report, between, made, first, decided, counters, making, here, same⟩ :=
    unreturned_yields lawful (fun _ _ _ _ ends => ends.2) wf run failed
  have spared : (fresh.ground wf).Clean between → gate.Spared tree after :=
    fun clean => fresh.spared wf (clean.createRoot List.mem_cons_self making) same
  cases decided with
  | inspected _ => exact Or.inl ⟨counters, spared clean_base⟩
  | stopped _ commit => exact Or.inl ⟨counters, spared (fresh.commit_error wf unparked commit)⟩
  | @committed files _ passed commit =>
      have grows := making.grows (FileProgram.Yields.wellFormed lawful commit wf)
      have keeps : ∀ place entry, between.get? place = some entry → after.get? place = some entry :=
        fun place entry found => (same place).trans (grows.keeps _ _ (clear_of_nothing _) found)
      refine Or.inr ⟨counters, files, between, commit, keeps, fun ⟨valid, unlinked⟩ => ?_⟩
      exact delivered_of_commit wf (RuleSet.validate_eq_ok.mp valid) unparked unlinked lawful passed
        commit (FileProgram.Yields.wellFormed lawful run wf) (here.trans grows.here) keeps

-----------------------------------------------------------------------------------------
-- A directory in the place of a report
-----------------------------------------------------------------------------------------

/-- A test for answers with which a promotion can be undone, even where something else than what was
set aside cannot be moved.
-/
def isReversible (staging : Path) : (op : Operation) → Except FileFault op.Answer → Bool
  | .rename source _, .error _ =>
      !(staging.join (Path.bytesOf ".previous-")).bytes.isPrefixOf source.bytes
  | op, answer => op.isDependable staging answer

theorem dependable_of_reversible {staging : Path} {op : Operation}
    {answer : Except FileFault op.Answer} (passed : isReversible staging op answer = true)
    : op.Dependable staging answer := by
  cases op with
  | rename source target =>
      cases answer with
      | ok _ => exact fun _ => rfl
      | error fault =>
          rintro ⟨index, rfl⟩
          have parked : (staging.join (Path.bytesOf ".previous-")).bytes
              <+: (PromotionRoute.parkingPlace staging index).bytes := by
            rw [PromotionRoute.parkingPlace, Path.bytesOf_append]
            exact Path.prefix_join staging (by decide) _
          simp [isReversible, List.isPrefixOf_iff_prefix.mpr parked] at passed
  | _ => exact Operation.dependable_of_test passed

/-- Promoting on a tree alone is a run in which a promotion can be undone, when the answers pass this
test.
-/
theorem run_of_reversible {α : Type} {staging : Path} (program : FileProgram α)
    (wf : tree.WellFormed) (passed : program.passes (isReversible staging) tree = true)
    : program.Yields (.dependable staging) tree (program.run tree).1 (program.run tree).2 :=
  FileProgram.yields_run_of_passes
    (fun _ op wf passed => ⟨op.ends_perform wf, dependable_of_reversible passed⟩) program wf passed

/-- A draft of two files; an earlier file in the output directory, and a directory where the report
belongs.
-/
def obstructingEdits : List Edit :=
  [.write (.ofString "draft/a") (Path.bytesOf "new") none,
    .write (.ofString "draft/b/c") (Path.bytesOf "newer") none,
    .write (.ofString "out/a") (Path.bytesOf "old") none,
    .makeDirectory (.ofString "out/PROMOTION_REPORT.json") none]

/-- The tree that these edits make. -/
@[irreducible] def obstructedTree : FileTree :=
  (Edit.applyAll .empty obstructingEdits).toOption.getD .empty

theorem obstructedTree_made : Edit.applyAll .empty obstructingEdits = .ok obstructedTree := by
  decide +kernel

theorem inspect_obstructedTree : nestedGate.inspect obstructedTree = ⟨[], [], [], none⟩ := by
  have stands
      : obstructedTree.lookup true nestedGate.draftRoot
        = .ok ([Path.bytesOf "work", Path.bytesOf "draft"], .directory Entry.directoryMode) := by
    decide +kernel
  exact inspect_nested stands (by decide +kernel) (by decide +kernel)

/-- Both files are put into place, and then no report can be written. -/
theorem unreported_promotion_obstructed
    : ∃ fault,
        (nestedGate.run default obstructedTree).1.report = .error fault
        ∧ ∀ path ∈ ["a", "b/c"],
            nestedGate.Delivered obstructedTree (nestedGate.run default obstructedTree).2 path := by
  have wf := Edit.wellFormed_applyAll wellFormed_empty obstructedTree_made
  have fresh : nestedGate.Fresh obstructedTree (PromotionRoute.stagingStart ++ Path.bytesOf "0") :=
    ⟨⟨Path.bytesOf "0", by decide, rfl⟩, by decide +kernel, by decide +kernel, by decide +kernel,
      by decide +kernel⟩
  have unparked : nestedGate.Unparked := unparked_of_heads (by decide +kernel)
  have unlinked : nestedGate.Unlinked obstructedTree :=
    fun _ _ => linkFree_of_entries (by decide +kernel)
  have passed
      : (nestedGate.program default ⟨[], [], [], none⟩).passes
          (isReversible
            (nestedGate.outputRoot.join (PromotionRoute.stagingStart ++ Path.bytesOf "0")))
          obstructedTree
        = true := by
    decide +kernel
  have ended
      : ((nestedGate.program default ⟨[], [], [], none⟩).run obstructedTree).1.report.toOption = none
        ∧ ((nestedGate.program default ⟨[], [], [], none⟩).run obstructedTree).1.counters.accepted
          = 1 := by
    decide +kernel
  rw [← inspect_obstructedTree] at passed ended
  obtain ⟨unreported, counted⟩ := ended
  unfold PromotionGate.run
  have run := run_of_reversible _ wf passed
  obtain ⟨fault, failed⟩ := Except.toOption_eq_none.mp unreported
  refine ⟨fault, failed, ?_⟩
  obtain ⟨counters, _⟩ | ⟨_, _, _, _, _, delivered⟩ :=
    unreported_promotion wf fresh unparked run failed
  · rw [counters] at counted
    exact absurd counted (by decide)
  · exact delivered ⟨by decide +kernel, unlinked⟩

/-- A required file is replaced in a promotion that returns no report. -/
theorem promoted_without_report
    : (nestedGate.run default obstructedTree).1.report.toOption = none
      ∧ obstructedTree.readFile (.ofString "out/a") = .ok (Path.bytesOf "old")
      ∧ (nestedGate.run default obstructedTree).2.readFile (.ofString "out/a")
        = .ok (Path.bytesOf "new") := by
  unfold PromotionGate.run
  rw [inspect_obstructedTree]
  decide +kernel

end PromotionGate

end Vetting
