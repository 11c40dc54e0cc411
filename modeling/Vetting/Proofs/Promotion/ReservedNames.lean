import Vetting.Proofs.Promotion.DraftFiles
import Vetting.Proofs.Promotion.Frame

/-! The names that a promotion uses itself: those under which things are set aside, and that of the
report. A valid rule set may require files with such names, and then two things are put at one path;
where no required path leads to them, no copy is lost before it is moved into place, and the report
takes the place of no required file.
-/

namespace Vetting

open FileTree PromotionGround PromotionStep

-----------------------------------------------------------------------------------------
-- Paths below one directory
-----------------------------------------------------------------------------------------

namespace SafePath

/-- A path in normal form has one name when it is that name. -/
theorem names_eq_singleton {path name : String} (normal : normalize path = .ok path)
    (proper : Path.IsName (Path.bytesOf name)) (noBackslash : '\\' ∉ name.toList)
    : names path = [Path.bytesOf name] ↔ path = name := by
  constructor
  · exact eq_of_names_singleton normal
  · rintro rfl
    have proper : ∀ part ∈ [path], Path.IsName (Path.bytesOf part) := by simpa using proper
    have noBackslash : ∀ part ∈ [path], '\\' ∉ part.toList := by simpa using noBackslash
    exact names_of_parts (by simp) proper noBackslash normal

end SafePath

theorem Path.below_inj {directory : Path} {names others : List Bytes}
    (proper : ∀ name ∈ names, Path.IsName name) (proper' : ∀ name ∈ others, Path.IsName name)
    : directory.below names = directory.below others ↔ names = others := by
  refine ⟨fun same => ?_, congrArg _⟩
  have written := congrArg Path.written same
  rwa [Path.written_below _ proper, Path.written_below _ proper', List.append_cancel_left_eq]
    at written

theorem Path.below_eq_join {directory : Path} {names : List Bytes} {name : Bytes}
    (proper : ∀ name ∈ names, Path.IsName name) (isName : Path.IsName name)
    : directory.below names = directory.join name ↔ names = [name] := by
  have single : ∀ other ∈ [name], Path.IsName other := by simpa using isName
  exact Path.below_inj proper single

namespace RuleSet

variable {rules : RuleSet}

/-- The paths at which copies are made and things are set aside. -/
def stagingPaths (rules : RuleSet) (staging : Path) : List Path :=
  rules.requiredFiles.map (fun path => staging.below (SafePath.names path))
  ++ (List.range rules.requiredFiles.length).map (PromotionRoute.parkingPlace staging)

/-- No required path is one that a promotion uses itself. -/
structure Unreserved (rules : RuleSet) : Prop where
  parked
    : ∀ path ∈ rules.requiredFiles,
        ∀ index < rules.requiredFiles.length, path ≠ ".previous-" ++ toString index
  report : ∀ path ∈ rules.requiredFiles, path ≠ PromotionReport.fileName

theorem noBackslash_previous (index : Nat) : '\\' ∉ (".previous-" ++ toString index).toList := by
  rw [String.toList_append, List.mem_append, not_or]
  exact ⟨by decide, not_mem_decimal (by decide) index⟩

/-- The copy of a required path belongs where something is set aside when it has that name. -/
theorem below_eq_parkingPlace {staging : Path} {path : String} {index : Nat}
    (normal : SafePath.normalize path = .ok path)
    : staging.below (SafePath.names path) = PromotionRoute.parkingPlace staging index
      ↔ path = ".previous-" ++ toString index := by
  have proper := PromotionSite.isName_parkingName index
  rw [← SafePath.names_eq_singleton normal proper (noBackslash_previous index)]
  exact Path.below_eq_join (fun _ => SafePath.isName_of_mem_names) proper

/-- A required file belongs where the report does when it has that name. -/
theorem below_eq_pathIn {outputRoot : Path} {path : String}
    (normal : SafePath.normalize path = .ok path)
    : outputRoot.below (SafePath.names path) = PromotionReport.pathIn outputRoot
      ↔ path = PromotionReport.fileName := by
  have proper := PromotionReport.isName_name
  rw [← SafePath.names_eq_singleton normal proper (by decide)]
  exact Path.below_eq_join (fun _ => SafePath.isName_of_mem_names) proper

/-- For a valid rule set, the paths of a promotion are different from each other exactly when no
required path is one that a promotion uses itself.
-/
theorem Valid.apart_iff (valid : rules.Valid) {staging outputRoot : Path}
    : (rules.stagingPaths staging).Nodup
        ∧ (∀ path ∈ rules.requiredFiles,
            outputRoot.below (SafePath.names path) ≠ PromotionReport.pathIn outputRoot)
      ↔ rules.Unreserved := by
  have copies : (rules.requiredFiles.map fun path => staging.below (SafePath.names path)).Nodup := by
    refine List.Nodup.map_on (fun path member other member' same => ?_) valid.distinct
    have names := (Path.below_inj (fun _ => SafePath.isName_of_mem_names)
      fun _ => SafePath.isName_of_mem_names).mp same
    exact SafePath.eq_of_names (valid.acceptable path member).normal
      (valid.acceptable other member').normal names
  have asides : ((List.range rules.requiredFiles.length).map
      (PromotionRoute.parkingPlace staging)).Nodup := by
    refine List.Nodup.map_on (fun one _ two _ same => ?_) List.nodup_range
    have proper : ∀ name ∈ [PromotionSite.parkingName one], Path.IsName name := by
      simpa using PromotionSite.isName_parkingName one
    have names := (Path.below_eq_join proper (PromotionSite.isName_parkingName two)).mp same
    exact PromotionSite.parkingName_injective (List.singleton_inj.mp names)
  -- No two copies have one path, nor have two things that are set aside: only one of each can.
  have apart : (rules.stagingPaths staging).Nodup ↔
      ∀ path ∈ rules.requiredFiles, ∀ index < rules.requiredFiles.length,
        path ≠ ".previous-" ++ toString index := by
    rw [stagingPaths, List.nodup_append]
    constructor
    · intro ⟨_, _, different⟩ path member index below same
      exact different _ (List.mem_map_of_mem member) _
        (List.mem_map_of_mem (List.mem_range.mpr below))
        ((below_eq_parkingPlace (valid.acceptable path member).normal).mpr same)
    · intro free
      refine ⟨copies, asides, ?_⟩
      simp only [List.mem_map, List.mem_range]
      rintro _ ⟨path, member, rfl⟩ _ ⟨index, below, rfl⟩ same
      exact free path member index below
        ((below_eq_parkingPlace (valid.acceptable path member).normal).mp same)
  rw [apart]
  constructor
  · intro ⟨parked, report⟩
    exact ⟨parked, fun path member same => report path member
      ((below_eq_pathIn (valid.acceptable path member).normal).mpr same)⟩
  · intro ⟨parked, report⟩
    exact ⟨parked, fun path member same => report path member
      ((below_eq_pathIn (valid.acceptable path member).normal).mp same)⟩

end RuleSet

-----------------------------------------------------------------------------------------
-- Copies that are still to be moved
-----------------------------------------------------------------------------------------

/-- A copy stands where its path leads, and its bytes have the digest that was compared. -/
def CopyStands (tree : FileTree) (file : StagedFile) : Prop :=
  ∃ place,
    PromotionSite.HoldsAt tree place file.digest
    ∧ ∀ spot, tree.resolve false file.staged = .ok spot → spot = place

namespace PromotionSite

variable {site : PromotionSite} {tree after : FileTree} {conduct : Conduct}
  {installed : List InstalledFile} {rest : List StagedFile}

/-- What holds between two moves: the copies that are still to be moved are unchanged, and stand
beside each other.
-/
structure Pending (site : PromotionSite) (installed : List InstalledFile) (rest : List StagedFile)
    (tree : FileTree)
    : Prop
    extends site.Installing installed rest tree where
  beside : rest.Pairwise Beside
  held : ∀ file ∈ rest, HoldsAt tree (site.copyPlace file) file.digest

theorem Pending.stands (pending : site.Pending installed rest tree)
    : ∀ file ∈ rest, CopyStands tree file := by
  intro file member
  obtain ⟨_, directory⟩ := pending.directory
  exact ⟨_, pending.held file member, fun _ =>
    resolve_copy pending.restorable.like directory pending.links (pending.binds file member)⟩

/-- A move puts the copy where its path leads, and leaves the other copies as they are. -/
theorem Pending.move {file : StagedFile} (pending : site.Pending installed (file :: rest) tree)
    (lawful : conduct.Lawful) {done : InstalledFile}
    (run
      : (PromotionRoute.install site.stagingPath file installed.length).Yields conduct tree
          (.ok done) after)
    : site.Pending (done :: installed) rest after
      ∧ ∃ place, site.base.LeadsTo file.target place ∧ HoldsAt after place file.digest := by
  obtain ⟨fromFile, apart⟩ := List.pairwise_cons.mp pending.beside
  obtain ⟨between, aside, place, _, extended, leads, moved, _, onward⟩ :=
    pending.toInstalling.install_ok lawful run
  refine ⟨⟨onward, apart, fun other member => ?_⟩, place, leads,
    moved.landed extended (pending.held file List.mem_cons_self)⟩
  have further := List.mem_cons_of_mem file member
  exact moved.pending extended (fromFile other member) (pending.binds other further)
    (pending.held other further)

end PromotionSite

namespace PromotionGate

variable {gate : PromotionGate} {tree between after : FileTree} {conduct : Conduct}
  {staging : Path} {installed : List InstalledFile} {rest files : List StagedFile}

/-- Once the copies have been made, they are moved into place one after another; between two moves,
some files have been moved, and others are still to be.
-/
inductive Moving (gate : PromotionGate) (conduct : Conduct) (tree : FileTree)
    : Path → List InstalledFile → List StagedFile → FileTree → Prop
  | copied {staging files first second after}
    (made : conduct tree (.createDirectories gate.outputRoot) (.ok ()) first)
    (scratched
      : conduct first (.createScratch gate.outputRoot PromotionRoute.stagingStart) (.ok staging)
          second)
    (copies
      : PromotionStep.Yields conduct
          (gate.rules.requiredFiles.mapM (gate.route.stageFile staging)) second (.ok files) after)
    : Moving gate conduct tree staging [] files after
  | moved {staging installed file rest before done after}
    (earlier : Moving gate conduct tree staging installed (file :: rest) before)
    (move
      : (PromotionRoute.install staging file installed.length).Yields conduct before (.ok done)
          after)
    : Moving gate conduct tree staging (done :: installed) rest after

/-- Moving the rest of the copies leads from one move to the next, by induction on them. -/
theorem Moving.installAll (moving : gate.Moving conduct tree staging installed rest between)
    (run
      : (PromotionRoute.installAll staging installed rest).Yields conduct between (.ok ()) after)
    : ∃ all, gate.Moving conduct tree staging all [] after := by
  induction rest generalizing installed between with
  | nil =>
      obtain ⟨_, rfl⟩ := yields_pure.mp run
      exact ⟨installed, moving⟩
  | cons file rest ih =>
      obtain ⟨_, _, move, run⟩ := PromotionSite.installAll_cons run
      exact ih (.moved moving move) run

/-- Putting files into place goes through all moves. -/
theorem moving_of_commit
    (run : (gate.route.commit gate.rules.requiredFiles).Yields conduct tree (.ok files) after)
    : ∃ staging all between answer,
        gate.Moving conduct tree staging all [] between
        ∧ conduct between (.removeDirectory staging) answer after := by
  obtain ⟨_, staging, _, _, last, answer, made, scratched, copied, moved, removed⟩ :=
    commit_yields_ok run
  obtain ⟨all, moving⟩ := (Moving.copied made scratched copied).installAll moved
  exact ⟨staging, all, last, answer, moving, removed⟩

/-- Between two moves, the copies that are still to be moved are unchanged, by induction on the moves
that have been made.
-/
theorem Moving.pending (wf : tree.WellFormed) (valid : gate.rules.Valid) (unparked : gate.Unparked)
    (passed : (gate.inspect tree).failedStage = none) (lawful : conduct.Lawful)
    (moving : gate.Moving conduct tree staging installed rest between)
    : ∃ site : PromotionSite,
        site.base = tree
        ∧ staging = site.stagingPath
        ∧ site.Pending installed rest between := by
  induction moving with
  | @copied files _ _ _ made scratched copies =>
      obtain ⟨_, _, _, _, _, checked, _, _⟩ := passed_of_inspect passed
      obtain ⟨name, fresh, site, same, path, copied⟩ := copied_of_stageAll wf unparked
        (readable_of_findings checked) lawful made scratched copies
      have distinct : (files.map fun file => SafePath.names file.path).Nodup := by
        have names := valid.distinctNames
        rwa [← copied.paths, List.map_map] at names
      have held := copied.digests valid.distinctNames
      exact ⟨site, (Fresh.ground_eq same).1, path, copied.copying.installing copied.binds copied.areFiles,
        PromotionSite.beside_of_holds copied.copying.wellFormed held distinct, held⟩
  | moved _ move ih =>
      obtain ⟨site, base, rfl, pending⟩ := ih
      exact ⟨site, base, rfl, (pending.move lawful move).1⟩

-----------------------------------------------------------------------------------------
-- Promotions without reserved names
-----------------------------------------------------------------------------------------

/-- No copy is lost before it is moved: the copies that are still to be moved stand with their digests,
and the next one comes to stand with its digest where its path leads.
-/
structure Intact (conduct : Conduct) (tree : FileTree) (staging : Path)
    (installed : List InstalledFile) (rest : List StagedFile) (between : FileTree)
    : Prop where
  copies : ∀ file ∈ rest, CopyStands between file
  next
    : ∀ file done after,
        rest.head? = some file
        → (PromotionRoute.install staging file installed.length).Yields conduct between (.ok done)
            after
        → ∃ place, tree.LeadsTo file.target place ∧ PromotionSite.HoldsAt after place file.digest

/-- Writing the report leaves the places as they are to which the paths of other required files lead.
-/
theorem unreported_places {now : Timestamp} {outcome : Outcome} {report : PromotionReport}
    (wf : tree.WellFormed) (valid : gate.rules.Valid) (unparked : gate.Unparked)
    (unlinked : gate.Unlinked tree)
    (run : (gate.program now (gate.inspect tree)).Yields .any tree outcome after)
    (returned : outcome.report = .ok report) (isAccepted : report.ok = true)
    : ∃ files between first root,
        (gate.route.commit gate.rules.requiredFiles).Yields .any tree (.ok files) between
        ∧ (Operation.createDirectories gate.outputRoot).Ends between (.ok ()) first
        ∧ report.Reported gate.outputRoot root first after
        ∧ ∀ path ∈ gate.rules.requiredFiles,
            path ≠ PromotionReport.fileName
            → ∀ place,
                tree.LeadsTo (gate.outputRoot.below (SafePath.names path)) place
                → after.get? place = first.get? place := by
  obtain ⟨name, fresh, site, files, between, first, same, commit, made, _, reported⟩ :=
    framed_of_accepted wf valid unparked run returned isAccepted
  obtain ⟨base, outputRoot, _⟩ := Fresh.ground_eq same
  refine ⟨files, between, first, site.root, commit, made, reported, fun path required other => ?_⟩
  intro place leads
  have normal := (valid.acceptable path required).normal
  have nonempty : SafePath.names path ≠ [] := by
    obtain ⟨parts, parsed, names⟩ := SafePath.names_of_normal normal
    simpa [names] using (SafePath.isName_of_parse parsed).1
  have free := unlinked path required
  rw [← base, ← outputRoot] at free leads
  obtain rfl := leads.unique
    (leadsTo_below (fresh.admits wf unparked same path required nonempty) rfl free)
  rw [reported.get?_eq, if_neg]
  intro isReport
  exact other (SafePath.eq_of_names_singleton normal (List.append_cancel_left isReport))

/-- For a valid rule set, the paths of a promotion are different from each other exactly when no
required path is one that a promotion uses itself. Putting files into place goes through all moves.
When no required path leads to where things are set aside, no copy is lost before it is moved; and
when no link turns off, the report takes the place of no required file with another name.
-/
theorem intact_unless_reserved (wf : tree.WellFormed) (valid : gate.rules.validate = .ok ())
    : (∀ staging,
          (gate.rules.stagingPaths staging).Nodup
            ∧ (∀ path ∈ gate.rules.requiredFiles,
                gate.outputRoot.below (SafePath.names path)
                ≠ PromotionReport.pathIn gate.outputRoot)
          ↔ gate.rules.Unreserved)
      ∧ (∀ files after,
          (gate.route.commit gate.rules.requiredFiles).Yields .any tree (.ok files) after
          → ∃ staging installed between answer,
              gate.Moving .any tree staging installed [] between
              ∧ Conduct.any between (.removeDirectory staging) answer after)
      ∧ (gate.Unparked
        → (gate.inspect tree).failedStage = none
        → ∀ staging installed rest between,
            gate.Moving .any tree staging installed rest between
            → Intact .any tree staging installed rest between)
      ∧ (gate.Unparked
        → gate.Unlinked tree
        → ∀ now outcome after report,
            (gate.program now (gate.inspect tree)).Yields .any tree outcome after
            → outcome.report = .ok report
            → report.ok = true
            → ∃ files between first root,
                (gate.route.commit gate.rules.requiredFiles).Yields .any tree (.ok files) between
                ∧ (Operation.createDirectories gate.outputRoot).Ends between (.ok ()) first
                ∧ report.Reported gate.outputRoot root first after
                ∧ ∀ path ∈ gate.rules.requiredFiles,
                    path ≠ PromotionReport.fileName
                    → ∀ place,
                        tree.LeadsTo (gate.outputRoot.below (SafePath.names path)) place
                        → after.get? place = first.get? place) := by
  have valid := RuleSet.validate_eq_ok.mp valid
  refine ⟨fun staging => valid.apart_iff, fun files after => moving_of_commit, ?_, ?_⟩
  · intro unparked passed staging installed rest between moving
    obtain ⟨site, rfl, rfl, pending⟩ :=
      moving.pending wf valid unparked passed Conduct.lawful_any
    refine ⟨pending.stands, fun file done after first move => ?_⟩
    obtain ⟨others, rfl⟩ := List.head?_eq_some_iff.mp first
    exact (pending.move Conduct.lawful_any move).2
  · intro unparked unlinked now outcome after report run returned isAccepted
    exact unreported_places wf valid unparked unlinked run returned isAccepted

/-- No copy is lost before it is moved, though a directory stands where one belongs. -/
theorem intact_unless_reserved_replaced
    : nestedGate.rules.Unreserved
      ∧ ∀ staging installed rest between,
          nestedGate.Moving .any replacedTree staging installed rest between
          → Intact .any replacedTree staging installed rest between := by
  have wf := Edit.wellFormed_applyAll wellFormed_empty replacedTree_made
  have unparked : nestedGate.Unparked := unparked_of_heads (by decide +kernel)
  have passed : (nestedGate.inspect replacedTree).failedStage = none := by
    rw [inspect_replacedTree]
  have valid : nestedGate.rules.validate = .ok () := by decide +kernel
  obtain ⟨apart, _, intact, _⟩ := intact_unless_reserved wf valid
  exact ⟨(apart (.ofString "staging")).mp (by decide +kernel), intact unparked passed⟩

/-- A gate that requires a file with the name of the first thing that is set aside. -/
def reservedGate : PromotionGate where
  outputRoot := .ofString "out"
  draftRoot := .ofString "draft"
  rules := ⟨["a", ".previous-"], ["a", ".previous-0"], [], []⟩

/-- A draft of the two files, and an earlier file in the output directory. -/
def reservingEdits : List Edit :=
  [.write (.ofString "draft/.previous-0") (Path.bytesOf "newer") none,
    .write (.ofString "draft/a") (Path.bytesOf "new") none,
    .write (.ofString "out/a") (Path.bytesOf "old") none]

/-- The tree that these edits make. -/
@[irreducible] def reservedTree : FileTree :=
  (Edit.applyAll .empty reservingEdits).toOption.getD .empty

theorem inspect_reservedTree : reservedGate.inspect reservedTree = ⟨[], [], [], none⟩ := by
  have stands
      : reservedTree.lookup true reservedGate.draftRoot
        = .ok ([Path.bytesOf "work", Path.bytesOf "draft"], .directory Entry.directoryMode) := by
    decide +kernel
  have walked
      : DraftListing.walk reservedTree reservedTree.entries.length
          [Path.bytesOf "work", Path.bytesOf "draft"] []
        = [".previous-0", "a"].map DraftListing.Found.file := by
    decide +kernel
  exact inspect_of_walked stands walked (by decide) (by simp) (by decide +kernel) (by decide)
    (by decide +kernel)

/-- A valid rule set lets a copy be lost: the earlier file is set aside in its place, and it is put
into place under the digest of the draft.
-/
theorem copy_lost_to_reserved_name
    : reservedGate.rules.validate = .ok ()
      ∧ ¬ (reservedGate.rules.stagingPaths (.ofString "staging")).Nodup
      ∧ (reservedGate.run default reservedTree).1.report.toOption.map
            (fun report => (report.ok, report.digests.lookup ".previous-0"))
          = some (true, some (Sha256.hexDigest (Path.bytesOf "newer")))
      ∧ (reservedGate.run default reservedTree).2.readFile (.ofString "out/.previous-0")
        = .ok (Path.bytesOf "old") := by
  unfold PromotionGate.run
  rw [inspect_reservedTree]
  decide +kernel

end PromotionGate

end Vetting
