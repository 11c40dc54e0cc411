import Vetting.Proofs.Files.Setup
import Vetting.Proofs.Promotion.FreshNames

/-! A draft that is rejected leaves the tree as it was, at whichever stage and whichever operation
the promotion stops: all that stood before stands afterwards, the report is written, and nothing is
added besides it but directories on the way to the output directory and to the required files.
-/

namespace Vetting

open FileTree PromotionGround

-----------------------------------------------------------------------------------------
-- What is supposed of a run
-----------------------------------------------------------------------------------------

/-- What is relied on when a promotion is undone: files and directories can be removed, and what was
set aside can be moved back; the directory for copies has a known path.
-/
def Operation.Dependable (staging : Path) : (op : Operation) → Except FileFault op.Answer → Prop
  | .createScratch _ _, answer => ∀ path, answer = .ok path → path = staging
  | .rename source _, answer =>
      (∃ index, source = PromotionRoute.parkingPlace staging index) → answer = .ok ()
  | .removeFile _, answer => answer = .ok ()
  | .removeDirectory _, answer => answer = .ok ()
  | _, _ => True

/-- Operations end in every way they may in which a promotion can be undone. -/
def Conduct.dependable (staging : Path) : Conduct :=
  fun tree op answer after => op.Ends tree answer after ∧ op.Dependable staging answer

theorem Conduct.lawful_dependable (staging : Path) : (Conduct.dependable staging).Lawful :=
  fun _ _ _ _ ends => ends.1

/-- A test for answers with which a promotion can be undone. -/
def Operation.isDependable (staging : Path)
    : (op : Operation) → Except FileFault op.Answer → Bool
  | .createScratch _ _, .ok path => path == staging
  | .rename _ _, .error _ => false
  | .removeFile _, .error _ => false
  | .removeDirectory _, .error _ => false
  | _, _ => true

theorem Operation.dependable_of_test {staging : Path} {op : Operation}
    {answer : Except FileFault op.Answer} (passed : op.isDependable staging answer = true)
    : op.Dependable staging answer := by
  cases op <;> cases answer <;> simp_all [isDependable, Dependable]

/-- Promoting on a tree alone is a run in which a promotion can be undone, when the answers pass the
test.
-/
theorem Conduct.dependable_run {α : Type} {staging : Path} (program : FileProgram α)
    {tree : FileTree} (wf : tree.WellFormed)
    (passed : program.passes (Operation.isDependable staging) tree = true)
    : program.Yields (Conduct.dependable staging) tree (program.run tree).1
        (program.run tree).2 :=
  FileProgram.yields_run_of_passes
    (fun _ op wf passed => ⟨op.ends_perform wf, Operation.dependable_of_test passed⟩) program wf
    passed

namespace PromotionGate

variable {gate : PromotionGate} {tree after : FileTree} {name : Bytes}

/-- Where the report belongs below the place of the output directory. -/
def reportPlace (root : Place) : Place := root ++ [PromotionReport.name]

/-- A tree is as it was before a promotion, but for the report and for directories on the ways of the
promotion.
-/
structure Restored (gate : PromotionGate) (report : PromotionReport) (root : Place)
    (tree after : FileTree)
    : Prop where
  kept
    : ∀ place entry,
        place ≠ reportPlace root ∨ entry.isDirectory
        → tree.get? place = some entry
        → after.get? place = some entry
  added
    : ∀ place entry,
        tree.get? place = none
        → after.get? place = some entry
        → place = reportPlace root
          ∨ entry.isDirectory
            ∧ ∃ way ∈ gate.ways, tree.Toward (gate.outputRoot.start tree.here) way place
  reported
    : after.get? (reportPlace root) = some (.file (Path.bytesOf report.text) Entry.fileMode)

-----------------------------------------------------------------------------------------
-- Rejected drafts
-----------------------------------------------------------------------------------------

/-- When files are not put into place, nothing is left of it but directories. -/
theorem Fresh.commit_error (fresh : gate.Fresh tree name) (wf : tree.WellFormed)
    (unparked : gate.Unparked) {fault : PromotionFault}
    (run
      : (gate.route.commit gate.rules.requiredFiles).Yields
          (.dependable (gate.outputRoot.join name)) tree (.error fault) after)
    : (fresh.ground wf).Clean after := by
  have clean : (fresh.ground wf).Clean tree := clean_base
  have way : gate.outputRoot.written ∈ gate.ways := List.mem_cons_self
  rcases commit_yields run with ⟨_, _, _, made⟩ | ⟨first, made, rest⟩
  · exact clean.createRoot way made.1
  have clean := clean.createRoot way made.1
  rcases rest with ⟨_, _, _, scratched⟩ | ⟨staging, second, third, answer, scratched, transferred,
    removed⟩
  · exact scratched.1.symm ▸ clean
  obtain ⟨⟨_, _, _, _, scratched⟩, named⟩ := scratched
  obtain rfl := named staging rfl
  obtain ⟨site, same, copying⟩ := clean.copying scratched
  have path : site.stagingPath = gate.outputRoot.join name := by
    rw [PromotionSite.stagingPath, same]
    rfl
  rw [← path] at transferred removed
  have outputRoot : gate.route.outputRoot = site.outputRoot := by
    rw [same]
    rfl
  have undoable : site.Undoable [] third := by
    refine copying.transfer_error (Conduct.lawful_dependable _) ?_ ?_ outputRoot
      (fresh.admits wf unparked same) transferred
    · exact fun _ _ _ _ ends => ends.2
    · rw [path]
      exact fun _ index _ _ _ ends => ends.2 ⟨index, rfl⟩
  obtain ⟨ends, succeeds⟩ := removed
  obtain rfl : answer = .ok () := succeeds
  have clean := undoable.clean ends
  rwa [same] at clean

/-- From a tree with nothing new but directories, writing the report adds nothing but it and
directories.
-/
theorem Fresh.restored (fresh : gate.Fresh tree name) (wf : tree.WellFormed)
    {report : PromotionReport} {between first : FileTree} {root : Place}
    (clean : (fresh.ground wf).Clean between)
    (made : (Operation.createDirectories gate.outputRoot).Ends between (.ok ()) first)
    (reported : report.Reported gate.outputRoot root first after)
    : tree.Leads (gate.outputRoot.start tree.here) gate.outputRoot.written root
      ∧ gate.Restored report root tree after
      ∧ ∀ place entry, after.get? place = some entry → name ∉ place := by
  have start : (fresh.ground wf).Clean tree := clean_base
  have clean := clean.createRoot List.mem_cons_self made
  obtain ⟨left, course⟩ := reported.course
  have sameStart : gate.outputRoot.start first.here = gate.outputRoot.start tree.here := by
    rw [clean.like.here]
    rfl
  rw [sameStart] at course
  obtain ⟨leads, rootClear⟩ := course.leads linksClear clean.like
    (clear_singleton.mpr fresh.start) (clear_singleton.mpr fresh.output)
  have shown : ∀ {place entry}, tree.get? place = some entry → first.get? place = some entry := by
    intro place entry found
    have clear : name ∉ place := start.clear place entry found
    exact clean.grown.keeps place entry (clear_singleton.mpr clear) found
  refine ⟨leads, ⟨?_, ?_, ?_⟩, ?_⟩
  · intro place entry kept found
    rw [reported.get?_eq, if_neg, shown found]
    rintro rfl
    rcases kept with other | isDirectory
    · exact other rfl
    · exact absurd isDirectory (by simp [reported.noDirectory _ (shown found)])
  · intro place entry free found
    rw [reported.get?_eq] at found
    split at found
    · exact Or.inl ‹_›
    · obtain ⟨isDirectory, _, way⟩ := clean.grown.adds place entry
        (clear_singleton.mpr (clean.clear place entry found)) free found
      exact Or.inr ⟨isDirectory, way⟩
  · rw [reportPlace, reported.get?_eq, if_pos rfl]
  · intro place entry found
    rw [reported.get?_eq] at found
    split at found
    · rename_i same
      rw [same, List.mem_append, List.mem_singleton, not_or]
      exact ⟨clear_singleton.mp rootClear, fresh.ne_report⟩
    · exact clean.clear place entry found

/-- A promotion that returns a report of a rejection leaves the tree as it was, but for the report and
for directories on the ways of the promotion; the directory for copies is gone.
-/
theorem rejected_restored {now : Timestamp} {outcome : Outcome} {report : PromotionReport}
    (wf : tree.WellFormed) (fresh : gate.Fresh tree name) (unparked : gate.Unparked)
    (run
      : (gate.program now (gate.inspect tree)).Yields
          (.dependable (gate.outputRoot.join name)) tree outcome after)
    (returned : outcome.report = .ok report) (rejected : report.ok = false)
    : ∃ root,
        tree.Leads (gate.outputRoot.start tree.here) gate.outputRoot.written root
        ∧ gate.Restored report root tree after
        ∧ ∀ place entry, after.get? place = some entry → name ∉ place := by
  obtain ⟨between, first, root, decided, made, reported⟩ :=
    returned_yields (Conduct.lawful_dependable _) wf run returned
  have clean : (fresh.ground wf).Clean between := by
    cases decided with
    | inspected _ => exact clean_base
    | stopped _ commit => exact fresh.commit_error wf unparked commit
    | committed _ _ => exact absurd rejected (by simp [accepted])
  exact ⟨root, fresh.restored wf clean made reported⟩

/-- A draft of two files, and earlier files in the output directory that stand in their way. -/
def blockingEdits : List Edit :=
  [.write (.ofString "draft/a") (Path.bytesOf "new") none,
    .write (.ofString "draft/b/c") (Path.bytesOf "new") none,
    .write (.ofString "out/a") (Path.bytesOf "old") none,
    .write (.ofString "out/b") (Path.bytesOf "old") none]

/-- The tree that these edits make. -/
@[irreducible] def blockedTree : FileTree := (Edit.applyAll .empty blockingEdits).toOption.getD .empty

theorem blockedTree_made : Edit.applyAll .empty blockingEdits = .ok blockedTree := by
  decide +kernel

theorem inspect_blockedTree : nestedGate.inspect blockedTree = ⟨[], [], [], none⟩ := by
  have stands
      : blockedTree.lookup true nestedGate.draftRoot
        = .ok ([Path.bytesOf "work", Path.bytesOf "draft"], .directory Entry.directoryMode) := by
    decide +kernel
  exact inspect_nested stands (by decide +kernel) (by decide +kernel)

/-- The second file cannot be put into place, and the move of the first one is undone. -/
theorem rejected_restored_blocked
    : ∃ report root,
        (nestedGate.run default blockedTree).1.report = .ok report
        ∧ report.failedStage = some .commit
        ∧ nestedGate.Restored report root blockedTree (nestedGate.run default blockedTree).2 := by
  have wf := Edit.wellFormed_applyAll wellFormed_empty blockedTree_made
  have fresh : nestedGate.Fresh blockedTree (PromotionRoute.stagingStart ++ Path.bytesOf "0") :=
    ⟨⟨Path.bytesOf "0", by decide, rfl⟩, by decide +kernel, by decide +kernel, by decide +kernel,
      by decide +kernel⟩
  have unparked : nestedGate.Unparked := unparked_of_heads (by decide +kernel)
  have passed
      : (nestedGate.program default ⟨[], [], [], none⟩).passes
          (Operation.isDependable
            (nestedGate.outputRoot.join (PromotionRoute.stagingStart ++ Path.bytesOf "0")))
          blockedTree
        = true := by
    decide +kernel
  have decided
      : ((nestedGate.program default ⟨[], [], [], none⟩).run blockedTree).1.report.toOption.map
          (fun report => (report.ok, report.failedStage))
        = some (false, some .commit) := by
    decide +kernel
  rw [← inspect_blockedTree] at passed decided
  unfold PromotionGate.run
  have run := Conduct.dependable_run _ wf passed
  obtain ⟨report, returned, stages⟩ := Except.toOption_map_eq_some.mp decided
  obtain ⟨rejected, stage⟩ := Prod.mk.inj stages
  obtain ⟨root, _, restored, _⟩ := rejected_restored wf fresh unparked run returned rejected
  exact ⟨report, root, returned, stage, restored⟩

end PromotionGate

end Vetting
