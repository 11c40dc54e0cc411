import Vetting.Proofs.Files.Setup
import Vetting.Proofs.Promotion.FreshNames
import Vetting.Proofs.Promotion.Placement
import Vetting.Proofs.Promotion.SortedEntries
import Vetting.Proofs.Promotion.Validation

/-! A draft that is accepted is promoted: every required file stands where it belongs, with the
digest that the file of the draft had, and the directory for copies is gone.
-/

namespace Vetting

open FileTree PromotionGround

namespace PromotionGate

variable {gate : PromotionGate} {tree after : FileTree} {name : Bytes} {conduct : Conduct}

-----------------------------------------------------------------------------------------
-- Putting all files into place
-----------------------------------------------------------------------------------------

/-- No link stands on the way to a required file. -/
def Unlinked (gate : PromotionGate) (tree : FileTree) : Prop :=
  ∀ path ∈ gate.rules.requiredFiles,
    tree.LinkFree (gate.outputRoot.start tree.here)
      (gate.outputRoot.written ++ (SafePath.names path).dropLast)

/-- Where no link turns off, names lead from the place of the output directory to where they say. -/
theorem leadsTo_below {site : PromotionSite} {names : List Bytes} (admits : site.Admits names)
    {path : Path} (target : path = site.outputRoot.below names)
    (free
      : site.base.LinkFree (site.outputRoot.start site.base.here)
          (site.outputRoot.written ++ names.dropLast))
    : site.base.LeadsTo path (site.root ++ names) := by
  obtain ⟨names_eq, absolute⟩ := PromotionSite.names_target admits target
  have split := List.dropLast_append_getLast admits.nonempty
  have proper := admits.proper
  rw [← split, List.forall_mem_append] at proper
  have leads := free.leads
  rw [List.foldl_append, foldl_step_of_isName _ proper.1,
    (free.front (List.prefix_append _ _)).leads.unique site.leads] at leads
  refine ⟨site.outputRoot.written ++ names.dropLast, names.getLast admits.nonempty,
    site.root ++ names.dropLast, ?_, ?_, ?_⟩
  · rw [names_eq, List.append_assoc, split]
  · rw [Path.start, absolute]
    exact leads
  · rw [step_of_isName _ (proper.2 _ (by simp)), List.append_assoc, split]

/-- Copies of the required files have been verified, and they can be moved into place. -/
structure Copied (gate : PromotionGate) (site : PromotionSite) (files : List StagedFile)
    (tree : FileTree)
    : Prop where
  outputRoot : site.outputRoot = gate.outputRoot
  copying : site.Copying tree
  verified : List.Forall₂ (site.Verified gate.draftRoot) gate.rules.requiredFiles files
  areFiles
    : ∀ file ∈ files, ∃ entry, tree.get? (site.copyPlace file) = some entry ∧ entry.isFile
  digests
    : (gate.rules.requiredFiles.map SafePath.names).Nodup
      → ∀ file ∈ files, PromotionSite.HoldsAt tree (site.copyPlace file) file.digest
  usable : Usable site.stagingPath
  short : site.name.length ≤ nameLimit

/-- Verified files have the paths for which they were copied. -/
theorem paths_of_verified {site : PromotionSite} {draftRoot : Path} {required : List String}
    {files : List StagedFile} (verified : List.Forall₂ (site.Verified draftRoot) required files)
    : files.map StagedFile.path = required := by
  rw [← List.forall₂_eq_eq_eq, List.forall₂_map_left_iff]
  exact (List.Forall₂.flip verified).imp fun _ _ verified => verified.path_eq

theorem Copied.paths {site : PromotionSite} {files : List StagedFile}
    (copied : gate.Copied site files tree)
    : files.map StagedFile.path = gate.rules.requiredFiles :=
  paths_of_verified copied.verified

theorem Copied.binds {site : PromotionSite} {files : List StagedFile}
    (copied : gate.Copied site files tree)
    : ∀ file ∈ files, site.Binds file := fun file member =>
  (copied.verified.partner_left file member).choose_spec.2.toBinds

theorem Copied.targets {site : PromotionSite} {files : List StagedFile}
    (copied : gate.Copied site files tree)
    : files.map StagedFile.target
      = gate.rules.requiredFiles.map fun path => gate.outputRoot.below (SafePath.names path) := by
  rw [← copied.paths, List.map_map]
  refine List.map_congr_left fun file member => ?_
  rw [(copied.binds file member).target, copied.outputRoot]
  rfl

/-- Once the output directory and a directory for copies have been made, and the required files have
been copied there, the copies can be moved into place.
-/
theorem copied_of_stageAll (wf : tree.WellFormed) (unparked : gate.Unparked)
    (readable
      : ∀ path ∈ gate.rules.requiredFiles,
          ∃ source content,
            SafePath.resolve gate.draftRoot path = .ok source ∧ tree.readFile source = .ok content)
    (lawful : conduct.Lawful) {first second : FileTree} {staging : Path} {files : List StagedFile}
    (made : conduct tree (.createDirectories gate.outputRoot) (.ok ()) first)
    (scratched
      : conduct first (.createScratch gate.outputRoot PromotionRoute.stagingStart) (.ok staging)
          second)
    (copied
      : PromotionStep.Yields conduct
          (gate.rules.requiredFiles.mapM (gate.route.stageFile staging)) second (.ok files) after)
    : ∃ (name : Bytes) (fresh : gate.Fresh tree name) (site : PromotionSite),
        site.toPromotionGround = fresh.ground wf
        ∧ staging = site.stagingPath
        ∧ gate.Copied site files after := by
  have made := lawful _ _ _ _ made
  obtain ⟨rest, noSlash, unused, rfl, created⟩ := lawful _ _ _ _ scratched
  have fresh := fresh_of_scratched wf made noSlash unused created readable
  have clean : (fresh.ground wf).Clean first := clean_base.createRoot List.mem_cons_self made
  obtain ⟨site, same, copying⟩ := clean.copying created
  obtain ⟨_, outputRoot, _, nameEq⟩ := Fresh.ground_eq same
  have path : gate.outputRoot.join (PromotionRoute.stagingStart ++ rest) = site.stagingPath := by
    rw [PromotionSite.stagingPath, outputRoot, nameEq]
  -- The path of the directory for copies was usable when it was made, and this does not change.
  obtain ⟨_, resolved⟩ := PromotionReport.resolve_of_made clean.wellFormed fresh.isName created
  obtain ⟨usable, _, _, _, _, short, _⟩ := (PromotionReport.resolve_join fresh.isName).mp resolved
  rw [path] at copied
  obtain ⟨recopied, kept⟩ := copying.stageAll lawful outputRoot.symm (fresh.admits wf unparked same)
    copied
  obtain ⟨verified, areFiles, digests⟩ := kept files rfl
  exact ⟨_, fresh, site, same, path, outputRoot, recopied.copying, verified, areFiles, digests,
    path ▸ usable, nameEq ▸ short⟩

/-- When files are put into place, their copies are moved there, and then the directory for copies is
removed.
-/
theorem commit_moves (wf : tree.WellFormed) (unparked : gate.Unparked)
    (readable
      : ∀ path ∈ gate.rules.requiredFiles,
          ∃ source content,
            SafePath.resolve gate.draftRoot path = .ok source ∧ tree.readFile source = .ok content)
    (lawful : conduct.Lawful) {files : List StagedFile}
    (run : (gate.route.commit gate.rules.requiredFiles).Yields conduct tree (.ok files) after)
    : ∃ (name : Bytes) (fresh : gate.Fresh tree name) (site : PromotionSite) (first last : FileTree)
          (answer : Except FileFault Unit),
        site.toPromotionGround = fresh.ground wf
        ∧ gate.Copied site files first
        ∧ (PromotionRoute.installAll site.stagingPath [] files).Yields conduct first (.ok ()) last
        ∧ (Operation.removeDirectory site.stagingPath).Ends last answer after := by
  obtain ⟨first, staging, second, third, last, answer, made, scratched, copying, moved, removed⟩ :=
    commit_yields_ok run
  obtain ⟨name, fresh, site, same, rfl, copied⟩ :=
    copied_of_stageAll wf unparked readable lawful made scratched copying
  exact ⟨name, fresh, site, third, last, answer, same, copied, moved, lawful _ _ _ _ removed⟩

/-- When files are put into place, each of them is verified and stands where it belongs. -/
theorem commit_ok (wf : tree.WellFormed) (valid : gate.rules.Valid) (unparked : gate.Unparked)
    (unlinked : gate.Unlinked tree)
    (readable
      : ∀ path ∈ gate.rules.requiredFiles,
          ∃ source content,
            SafePath.resolve gate.draftRoot path = .ok source ∧ tree.readFile source = .ok content)
    (lawful : conduct.Lawful) {files : List StagedFile}
    (run : (gate.route.commit gate.rules.requiredFiles).Yields conduct tree (.ok files) after)
    : ∃ (name : Bytes) (fresh : gate.Fresh tree name) (site : PromotionSite),
        site.toPromotionGround = fresh.ground wf
        ∧ List.Forall₂ (site.Verified gate.draftRoot) gate.rules.requiredFiles files
        ∧ site.Placed files.reverse after := by
  obtain ⟨name, fresh, site, first, last, answer, same, copied, moved, removed⟩ :=
    commit_moves wf unparked readable lawful run
  obtain ⟨base, _⟩ := Fresh.ground_eq same
  have paths := copied.paths
  have distinct : (files.map fun file => SafePath.names file.path).Nodup := by
    have names := valid.distinctNames
    rwa [← paths, List.map_map] at names
  have straight : ∀ file ∈ files, site.base.LeadsTo file.target (site.filePlace file) := by
    intro file member
    have binds := copied.binds file member
    refine leadsTo_below binds.toAdmits binds.target ?_
    rw [base, copied.outputRoot]
    exact unlinked file.path (paths ▸ List.mem_map_of_mem member)
  obtain ⟨installed, settled⟩ := (copied.copying.settling copied.binds
    (copied.digests valid.distinctNames) distinct).installAll lawful straight moved
  rw [List.append_nil] at settled
  have some : files.reverse ≠ [] := by
    intro none
    rw [List.reverse_eq_nil_iff] at none
    rw [none, List.map_nil] at paths
    exact valid.required paths.symm
  exact ⟨name, fresh, site, same, copied.verified,
    settled.placed some copied.usable copied.short removed⟩

-----------------------------------------------------------------------------------------
-- Accepted drafts
-----------------------------------------------------------------------------------------

/-- A required file stands where its path leads. It is a regular file, and the digest of its bytes is
the reported one, which is that of the bytes that the draft had.
-/
def Promoted (gate : PromotionGate) (report : PromotionReport) (tree after : FileTree)
    (path : String)
    : Prop :=
  ∃ source content target place copy mode,
    SafePath.resolve gate.draftRoot path = .ok source
    ∧ tree.readFile source = .ok content
    ∧ (path, Sha256.hexDigest content) ∈ report.digests
    ∧ SafePath.resolve gate.outputRoot path = .ok target
    ∧ after.lookup false target = .ok (place, .file copy mode)
    ∧ Sha256.hexDigest copy = Sha256.hexDigest content

/-- The destination of a promoted file holds the bytes of the draft, unless the two collide under the
digest.
-/
theorem Promoted.same_bytes {report : PromotionReport} {path : String}
    (promoted : gate.Promoted report tree after path)
    : ∃ source content target place copy mode,
        SafePath.resolve gate.draftRoot path = .ok source
        ∧ tree.readFile source = .ok content
        ∧ SafePath.resolve gate.outputRoot path = .ok target
        ∧ after.lookup false target = .ok (place, .file copy mode)
        ∧ (copy = content ∨ Sha256.Collide copy content) := by
  obtain ⟨source, content, target, place, copy, mode, resolved, read, _, goal, stands, same⟩ :=
    promoted
  exact ⟨source, content, target, place, copy, mode, resolved, read, goal, stands,
    Sha256.eq_or_collide same⟩

/-- The digest of a verified copy is that of the file of the draft. -/
theorem digest_of_verified {site : PromotionSite} {draftRoot source : Path} {path : String}
    {file : StagedFile} {content : Bytes} (verified : site.Verified draftRoot path file)
    (resolved : SafePath.resolve draftRoot path = .ok source)
    (read : site.base.readFile source = .ok content)
    : file.digest = Sha256.hexDigest content := by
  obtain ⟨between, content', copying, read', digest⟩ := verified.source
  obtain ⟨_, rfl⟩ := SafePath.resolve_eq_ok.mp resolved
  have again := readFile_kept copying.grown.here (fun place entry found =>
    copying.grown.keeps place entry (clear_singleton.mpr (baseClear found)) found) read
  obtain rfl := Except.ok.inj (again.symm.trans read')
  exact digest

/-- The report does not take the place of a file that has another name. -/
theorem filePlace_ne_report {site : PromotionSite} {file : StagedFile}
    (normal : SafePath.normalize file.path = .ok file.path)
    (other : file.path ≠ PromotionReport.fileName)
    : site.filePlace file ≠ site.root ++ [PromotionReport.name] := by
  intro same
  exact other (SafePath.eq_of_names_singleton normal (List.append_cancel_left same))

/-- Files stay in their places when the report is written, and their paths lead to them. -/
theorem promoted_of_placed {site : PromotionSite} {files : List StagedFile} {first : FileTree}
    {report : PromotionReport} (placed : site.Placed files first)
    (reported : report.Reported site.outputRoot site.root first after) {file : StagedFile}
    (member : file ∈ files) (binds : site.Binds file)
    (free : site.base.LinkFree (site.outputRoot.start site.base.here) site.outputRoot.written)
    (elsewhere : site.filePlace file ≠ site.root ++ [PromotionReport.name])
    : ∃ copy mode,
        after.lookup false file.target = .ok (site.filePlace file, .file copy mode)
        ∧ file.digest = Sha256.hexDigest copy := by
  obtain ⟨copy, mode, found, digest⟩ := placed.settled file member
  obtain ⟨usable, short, left, course⟩ := placed.landed file member
  have directories : ∀ spot mode, first.get? spot = some (.directory mode) →
      after.get? spot = some (.directory mode) := by
    intro spot mode stands
    rw [reported.get?_eq, if_neg, stands]
    rintro rfl
    exact absurd (reported.noDirectory _ stands) (by simp [Entry.isDirectory])
  have linkFree := placed.like.linkFree (clear_singleton.mpr site.startClear)
    (clear_singleton.mpr site.outputClear) free
  have landed : site.Landed file after := ⟨usable, short, left, course.kept directories linkFree⟩
  have stands : after.get? (site.filePlace file) = some (.file copy mode) := by
    rw [reported.get?_eq, if_neg elsewhere, found]
  have here := reported.here.trans placed.like.here
  exact ⟨copy, mode, PromotionSite.lookup_filePlace reported.wellFormed here binds landed stands,
    digest⟩

/-- A verified file whose digest is reported is promoted, when it stands in its place and the report is
written elsewhere.
-/
theorem promoted_of_verified {site : PromotionSite} {files : List StagedFile} {first : FileTree}
    {report : PromotionReport} (base : site.base = tree)
    (outputRoot : site.outputRoot = gate.outputRoot)
    (unlinked : gate.Unlinked tree) (placed : site.Placed files first)
    (reported : report.Reported site.outputRoot site.root first after) {file : StagedFile}
    (member : file ∈ files) (required : file.path ∈ gate.rules.requiredFiles)
    (verified : site.Verified gate.draftRoot file.path file)
    (readable
      : ∃ source content,
          SafePath.resolve gate.draftRoot file.path = .ok source
          ∧ tree.readFile source = .ok content)
    (elsewhere : site.filePlace file ≠ site.root ++ [PromotionReport.name])
    (told : (file.path, file.digest) ∈ report.digests)
    : gate.Promoted report tree after file.path := by
  obtain ⟨source, content, resolved, read⟩ := readable
  have digest := digest_of_verified verified resolved (base ▸ read)
  have free := unlinked file.path required
  rw [← outputRoot, ← base] at free
  obtain ⟨copy, mode, found, same⟩ := promoted_of_placed placed reported member verified.toBinds
    (free.front (List.prefix_append _ _)) elsewhere
  refine ⟨source, content, file.target, _, copy, mode, resolved, read, digest ▸ told, ?_, found, ?_⟩
  · rw [← outputRoot]
    exact SafePath.resolve_eq_ok.mpr ⟨verified.nonempty, verified.target⟩
  · rw [← same, digest]

/-- Once files stand in their places and the report is written, a name that was fresh is on the way to
nothing.
-/
theorem Fresh.clear_of_placed (fresh : gate.Fresh tree name) (wf : tree.WellFormed)
    {site : PromotionSite} {files : List StagedFile} {first : FileTree} {report : PromotionReport}
    (base : site.base = tree) (outputRoot : site.outputRoot = gate.outputRoot)
    (ways : site.ways = gate.ways) (required : ∀ file ∈ files, file.path ∈ gate.rules.requiredFiles)
    (placed : site.Placed files first)
    (reported : report.Reported site.outputRoot site.root first after)
    : ∀ place entry, after.get? place = some entry → name ∉ place := by
  have leads := site.leads
  rw [base, outputRoot] at leads
  have rootClear : name ∉ site.root := fresh.clear_of_leads wf leads fresh.start fresh.output
  intro place entry found
  rw [reported.get?_eq] at found
  split at found
  · rename_i isReport
    rw [isReport, List.mem_append, List.mem_singleton, not_or]
    exact ⟨rootClear, fresh.ne_report⟩
  rcases placed.others place entry found with stood | ⟨_, made⟩ | ⟨file, member, rfl⟩
  · rw [base] at stood
    exact fresh.clear_of_get? wf stood
  · obtain ⟨_, way, listed, front, isFront, leads⟩ := made
    rw [base, outputRoot] at leads
    rw [ways] at listed
    refine fresh.clear_of_leads wf leads fresh.start fun inside => ?_
    exact (fresh.ground wf).waysClear way listed (isFront.subset inside)
  · rw [PromotionSite.filePlace, List.mem_append, not_or]
    exact ⟨rootClear, fresh.required file.path (required file member)⟩

/-- A promotion that returns a report of an accepted draft has promoted the required files: their
digests are reported, each of them stands where it belongs, whatever stood there before, and no
directory for copies is left.
-/
theorem accepted_promoted {now : Timestamp} {outcome : Outcome} {report : PromotionReport}
    (wf : tree.WellFormed) (valid : gate.rules.validate = .ok ()) (unparked : gate.Unparked)
    (unreported : PromotionReport.fileName ∉ gate.rules.requiredFiles)
    (unlinked : gate.Unlinked tree)
    (run : (gate.program now (gate.inspect tree)).Yields .any tree outcome after)
    (returned : outcome.report = .ok report) (isAccepted : report.ok = true)
    : report.promoted = gate.rules.requiredFiles
      ∧ (report.digests.map Prod.fst).Perm gate.rules.requiredFiles
      ∧ (∀ path ∈ gate.rules.requiredFiles, gate.Promoted report tree after path)
      ∧ ∀ name,
          gate.Fresh tree name → ∀ place entry, after.get? place = some entry → name ∉ place := by
  have valid := RuleSet.validate_eq_ok.mp valid
  obtain ⟨files, between, first, root, passed, rfl, commit, made, reported⟩ :=
    committed_of_returned Conduct.lawful_any wf run returned isAccepted
  obtain ⟨listing, findings, _, _, _, checked, _, _⟩ := passed_of_inspect passed
  have readable := readable_of_findings checked
  obtain ⟨name, fresh, site, same, verified, placed⟩ :=
    commit_ok wf valid unparked unlinked readable Conduct.lawful_any commit
  obtain ⟨base, outputRoot, ways, _⟩ := Fresh.ground_eq same
  -- The report is written where the files have been put, after directories may have been made.
  rw [← outputRoot] at made reported
  have placed := placed.extended (extended_createDirectories placed.wellFormed placed.like
    placed.covers (fun _ => rfl) (ways ▸ outputRoot ▸ List.mem_cons_self) (List.prefix_refl _) made)
  obtain ⟨left, course⟩ := reported.course
  obtain rfl := PromotionSite.root_of_course placed.like course
  have paths := paths_of_verified verified
  have keys : (files.map fun file => (file.path, file.digest)).map Prod.fst
      = gate.rules.requiredFiles := by
    rw [List.map_map, ← paths]
    rfl
  have sorted := PromotionReport.sortedEntries_perm (keys ▸ valid.distinct)
  refine ⟨paths, keys ▸ sorted.map Prod.fst, ?_, ?_⟩
  · intro path required
    obtain ⟨file, member, verified⟩ := verified.partner_right path required
    obtain rfl := verified.path_eq
    have elsewhere : site.filePlace file ≠ site.root ++ [PromotionReport.name] :=
      filePlace_ne_report (valid.acceptable file.path required).normal
        fun named => unreported (named ▸ required)
    have told := sorted.mem_iff.mpr (List.mem_map.mpr ⟨file, member, rfl⟩)
    exact promoted_of_verified base outputRoot unlinked placed reported
      (List.mem_reverse.mpr member) required verified (readable file.path required) elsewhere told
  · intro other fresh
    refine fresh.clear_of_placed wf base outputRoot ways ?_ placed reported
    intro file member
    exact paths ▸ List.mem_map_of_mem (List.mem_reverse.mp member)

/-- A draft of two files; where the first one belongs stands a directory with a file in it. -/
def replacingEdits : List Edit :=
  [.write (.ofString "draft/a") (Path.bytesOf "new") none,
    .write (.ofString "draft/b/c") (Path.bytesOf "newer") none,
    .write (.ofString "out/a/old") (Path.bytesOf "old") none]

/-- The tree that these edits make. -/
@[irreducible] def replacedTree : FileTree := (Edit.applyAll .empty replacingEdits).toOption.getD .empty

theorem replacedTree_made : Edit.applyAll .empty replacingEdits = .ok replacedTree := by
  decide +kernel

theorem inspect_replacedTree : nestedGate.inspect replacedTree = ⟨[], [], [], none⟩ := by
  have stands
      : replacedTree.lookup true nestedGate.draftRoot
        = .ok ([Path.bytesOf "work", Path.bytesOf "draft"], .directory Entry.directoryMode) := by
    decide +kernel
  exact inspect_nested stands (by decide +kernel) (by decide +kernel)

/-- The directory is replaced, and both files are promoted. -/
theorem accepted_promoted_replaced
    : ∃ report,
        (nestedGate.run default replacedTree).1.report = .ok report
        ∧ report.promoted = ["a", "b/c"]
        ∧ ∀ path ∈ ["a", "b/c"],
            nestedGate.Promoted report replacedTree (nestedGate.run default replacedTree).2 path := by
  have wf := Edit.wellFormed_applyAll wellFormed_empty replacedTree_made
  have unparked : nestedGate.Unparked := unparked_of_heads (by decide +kernel)
  have unlinked : nestedGate.Unlinked replacedTree :=
    fun _ _ => linkFree_of_entries (by decide +kernel)
  have run := FileProgram.yields_run
    (nestedGate.program default (nestedGate.inspect replacedTree)) wf
  have decided
      : ((nestedGate.program default ⟨[], [], [], none⟩).run replacedTree).1.report.toOption.map
          PromotionReport.ok
        = some true := by
    decide +kernel
  rw [← inspect_replacedTree] at decided
  unfold PromotionGate.run
  obtain ⟨report, returned, isAccepted⟩ := Except.toOption_map_eq_some.mp decided
  obtain ⟨promoted, _, each, _⟩ := accepted_promoted wf (by decide +kernel) unparked (by decide)
    unlinked run returned isAccepted
  exact ⟨report, returned, promoted, each⟩

end PromotionGate

end Vetting
