import Vetting.Proofs.Promotion.Acceptance
import Vetting.Proofs.Promotion.Rejection

/-! What an accepted draft leaves alone. What stood in the tree still stands, unless it stood where the
report belongs, or at or below a place to which the path of a required file leads: what is set aside
there goes with the directory for copies, and when it is a directory, with all that it holds. Nothing
is new but required files, directories on the ways of the promotion, and the report.
-/

namespace Vetting

open FileTree PromotionGround

namespace PromotionSite

variable {site : PromotionSite} {tree after : FileTree} {installed : List InstalledFile}

-----------------------------------------------------------------------------------------
-- Moves that have not been undone
-----------------------------------------------------------------------------------------

/-- What stands apart from the places of moved files stays, by induction on the moves. -/
theorem Restorable.kept (restorable : site.Restorable installed tree) {place : Place} {entry : Entry}
    (clear : site.name ∉ place)
    (apart : ∀ file ∈ installed, ∀ above, site.base.LeadsTo file.target above → ¬ above <+: place)
    (found : site.base.get? place = some entry)
    : tree.get? place = some entry := by
  induction restorable with
  | start grown => exact grown.keeps place entry (clear_singleton.mpr clear) found
  | replaced _ _ _ leads _ replaced ih =>
      obtain ⟨here, others⟩ := List.forall_mem_cons.mp apart
      exact replaced.keeps place entry clear (here _ leads) (ih others)

/-- What is new is a moved file, or a directory that may be made, by induction on the moves. -/
theorem Restorable.added (restorable : site.Restorable installed tree) {place : Place}
    {entry : Entry} (clear : site.name ∉ place) (free : site.base.get? place = none)
    (found : tree.get? place = some entry)
    : (∃ file ∈ installed, site.base.LeadsTo file.target place)
      ∨ entry.isDirectory ∧ site.Made place := by
  induction restorable with
  | start grown => exact Or.inr (grown.adds place entry (clear_singleton.mpr clear) free found)
  | @replaced file installed _ spot before _ _ _ _ leads _ replaced ih =>
      by_cases inside : spot <+: place
      · obtain ⟨way, rfl⟩ := inside
        by_cases here : way = []
        · exact Or.inl ⟨file, List.mem_cons_self, by simpa [here] using leads⟩
        · rw [replaced.below way here] at found
          exact absurd found (by simp)
      cases stood : before.get? place with
      | none => exact Or.inr (replaced.adds place entry clear inside stood found)
      | some old =>
          have same := replaced.keeps place old clear inside stood
          obtain rfl := Option.some.inj (found.symm.trans same)
          rcases ih stood with ⟨other, member, leads⟩ | made
          · exact Or.inl ⟨other, List.mem_cons_of_mem _ member, leads⟩
          · exact Or.inr made

/-- At or above the place of each moved file stands a file, by induction on the moves: a file that is
moved later may take the place of a directory with an earlier one in it.
-/
theorem Restorable.covered (restorable : site.Restorable installed tree)
    : ∀ file ∈ installed,
        ∀ place,
          site.base.LeadsTo file.target place
          → ∃ above content mode,
              above <+: place
              ∧ site.name ∉ above
              ∧ tree.get? above = some (.file content mode) := by
  induction restorable with
  | start _ => simp
  | @replaced _ _ _ spot _ _ _ _ _ leads _ replaced ih =>
      obtain ⟨content, mode, file⟩ := replaced.file
      refine List.forall_mem_cons.mpr ⟨fun place leads' => ?_, fun other member place leads' => ?_⟩
      · obtain rfl := leads.unique leads'
        exact ⟨spot, content, mode, List.prefix_refl _, replaced.clear, file⟩
      · obtain ⟨above, content', mode', isAbove, clear, stands⟩ := ih other member place leads'
        -- The last file may have been put above an earlier one, and covers it from then on.
        by_cases inside : spot <+: above
        · exact ⟨spot, content, mode, inside.trans isAbove, replaced.clear, file⟩
        · exact ⟨above, content', mode', isAbove, clear,
            replaced.keeps above _ clear inside stands⟩

-----------------------------------------------------------------------------------------
-- Trees with new files
-----------------------------------------------------------------------------------------

/-- A tree differs from the base at some places, at or above each of which stands a file; apart from
these and what was below them, only directories are new.
-/
structure Framed (site : PromotionSite) (goal : Place → Prop) (tree : FileTree) : Prop where
  wellFormed : tree.WellFormed
  like : Resembles [site.name] site.base tree
  covers : Covers [site.name] site.base tree
  clear : ∀ place entry, tree.get? place = some entry → site.name ∉ place
  kept
    : ∀ place entry,
        site.base.get? place = some entry
        → (∀ above, goal above → ¬ above <+: place)
        → tree.get? place = some entry
  added
    : ∀ place entry,
        site.base.get? place = none
        → tree.get? place = some entry
        → goal place ∨ entry.isDirectory ∧ site.Made place
  covered
    : ∀ place,
        goal place
        → ∃ above content mode, above <+: place ∧ tree.get? above = some (.file content mode)

/-- Once the directory for copies is gone, a tree differs from the base at the places of the moved
files.
-/
theorem Undoable.framed (undoable : site.Undoable installed tree) (vacated : site.Vacated tree after)
    : site.Framed (fun place => ∃ file ∈ installed, site.base.LeadsTo file.target place) after := by
  have restorable := undoable.restorable
  refine ⟨vacated.wellFormed, vacated.like restorable.like, vacated.covers restorable.covers,
    vacated.clear, ?_, ?_, ?_⟩
  · intro place entry found apart
    have clear := baseClear found
    rw [vacated.kept place clear]
    exact restorable.kept clear (fun file member above leads => apart above ⟨file, member, leads⟩)
      found
  · intro place entry free found
    have clear := vacated.clear place entry found
    rw [vacated.kept place clear] at found
    exact restorable.added clear free found
  · rintro place ⟨file, member, leads⟩
    obtain ⟨above, content, mode, isAbove, clear, stands⟩ :=
      restorable.covered file member place leads
    exact ⟨above, content, mode, isAbove, (vacated.kept above clear).trans stands⟩

/-- Making directories adds nothing but directories. -/
theorem Framed.extended {goal : Place → Prop} (framed : site.Framed goal tree)
    (extended : site.Extended tree after)
    : site.Framed goal after := by
  have keeps : ∀ place entry, tree.get? place = some entry → after.get? place = some entry :=
    fun place entry found =>
      extended.grows.keeps place entry (clear_singleton.mpr (framed.clear place entry found)) found
  have clear : ∀ place entry, after.get? place = some entry → site.name ∉ place := by
    intro place entry found inside
    rw [extended.within place inside] at found
    exact framed.clear place entry found inside
  refine ⟨extended.wellFormed, framed.like.grown extended.grows fun _ made => made.1,
    framed.covers.grown extended.grows, clear, ?_, ?_, ?_⟩
  · exact fun place entry found apart => keeps place entry (framed.kept place entry found apart)
  · intro place entry free found
    cases stood : tree.get? place with
    | some old =>
        obtain rfl := Option.some.inj ((keeps place old stood).symm.trans found)
        exact framed.added place old free stood
    | none =>
        exact Or.inr (extended.grows.adds place entry (clear_singleton.mpr (clear place entry found))
          stood found)
  · intro place leads
    obtain ⟨above, content, mode, isAbove, stands⟩ := framed.covered place leads
    exact ⟨above, content, mode, isAbove, keeps _ _ stands⟩

end PromotionSite

namespace PromotionGate

variable {gate : PromotionGate} {tree after : FileTree} {conduct : Conduct}

/-- A place to which the path of a required file leads. -/
def Targets (gate : PromotionGate) (tree : FileTree) (place : Place) : Prop :=
  ∃ path ∈ gate.rules.requiredFiles,
    tree.LeadsTo (gate.outputRoot.below (SafePath.names path)) place

/-- When files are put into place, the tree changes where their paths lead. -/
theorem commit_framed (wf : tree.WellFormed) (valid : gate.rules.Valid) (unparked : gate.Unparked)
    (readable
      : ∀ path ∈ gate.rules.requiredFiles,
          ∃ source content,
            SafePath.resolve gate.draftRoot path = .ok source ∧ tree.readFile source = .ok content)
    (lawful : conduct.Lawful) {files : List StagedFile}
    (run : (gate.route.commit gate.rules.requiredFiles).Yields conduct tree (.ok files) after)
    : ∃ (name : Bytes) (fresh : gate.Fresh tree name) (site : PromotionSite),
        site.toPromotionGround = fresh.ground wf ∧ site.Framed (gate.Targets tree) after := by
  obtain ⟨name, fresh, site, first, last, answer, same, copied, moved, removed⟩ :=
    commit_moves wf unparked readable lawful run
  obtain ⟨base, _⟩ := Fresh.ground_eq same
  have some : files ≠ [] := by
    rintro rfl
    exact valid.required copied.paths.symm
  obtain ⟨all, finished, targets, landed⟩ :=
    (copied.copying.installing copied.binds copied.areFiles).installAll lawful moved
  -- As a file has landed, the path of the directory for copies still leads to it when it is removed.
  obtain ⟨file, landed⟩ := landed some
  have framed := finished.toUndoable.framed
    (landed.vacated finished.toUndoable copied.usable copied.short removed)
  refine ⟨name, fresh, site, same, ?_⟩
  rw [List.map_nil, List.append_nil, copied.targets] at targets
  have reached : ∀ target, target ∈ all.map InstalledFile.target ↔
      ∃ path ∈ gate.rules.requiredFiles, gate.outputRoot.below (SafePath.names path) = target := by
    intro target
    rw [targets, List.mem_reverse, List.mem_map]
  have goals : (fun place => ∃ file ∈ all, site.base.LeadsTo file.target place)
      = gate.Targets tree := by
    funext place
    rw [base, eq_iff_iff]
    constructor
    · rintro ⟨file, member, leads⟩
      obtain ⟨path, required, equal⟩ := (reached file.target).mp (List.mem_map_of_mem member)
      exact ⟨path, required, equal ▸ leads⟩
    · rintro ⟨path, required, leads⟩
      obtain ⟨file, member, equal⟩ := List.mem_map.mp ((reached _).mpr ⟨path, required, rfl⟩)
      exact ⟨file, member, equal ▸ leads⟩
  exact goals ▸ framed

-----------------------------------------------------------------------------------------
-- Accepted drafts
-----------------------------------------------------------------------------------------

/-- Below a file there is nothing. -/
theorem absent_of_covered (wf : tree.WellFormed) {above place spot : Place} {content : Bytes}
    {mode : Nat} (file : tree.get? above = some (.file content mode)) (isAbove : above <+: spot)
    (inside : spot <+: place) (other : place ≠ spot)
    : tree.get? place = none := by
  obtain ⟨way, rfl⟩ := isAbove.trans inside
  refine wf.below_none ?_ (by simp [file])
  rintro rfl
  rw [List.append_nil] at inside other
  exact other (isAbove.eq_of_length_le inside.length_le)

/-- From a tree with new files, writing the report changes nothing but its own place: what stood in the
base has been kept exactly when it did not stand below one of the places of these files.
-/
theorem frame_of_reported {site : PromotionSite} {goal : Place → Prop} {first : FileTree}
    {report : PromotionReport} {root : Place} (framed : site.Framed goal first)
    {outputRoot : Path} (reported : report.Reported outputRoot root first after)
    : (∀ place entry,
          site.base.get? place = some entry
          → ¬ goal place
          → place ≠ reportPlace root
          → (after.get? place = some entry ↔ ¬ ∃ above, goal above ∧ above <+: place))
      ∧ ∀ place entry,
          site.base.get? place = none
          → after.get? place = some entry
          → goal place ∨ place = reportPlace root ∨ entry.isDirectory ∧ site.Made place := by
  constructor
  · intro place entry found noGoal noReport
    have same : after.get? place = first.get? place := by
      rw [reported.get?_eq]
      exact if_neg noReport
    rw [same]
    constructor
    · rintro stands ⟨spot, isGoal, inside⟩
      obtain ⟨above, content, mode, isAbove, file⟩ := framed.covered spot isGoal
      have other : place ≠ spot := fun same => noGoal (same ▸ isGoal)
      rw [absent_of_covered framed.wellFormed file isAbove inside other] at stands
      exact absurd stands (by simp)
    · intro apart
      exact framed.kept place entry found fun above isGoal inside => apart ⟨above, isGoal, inside⟩
  · intro place entry free found
    rw [reported.get?_eq] at found
    split at found
    · rename_i isReport
      exact Or.inr (Or.inl isReport)
    · exact (framed.added place entry free found).imp_right Or.inr

/-- When a draft is accepted, the report is written to a tree that differs from the one before at the
places to which the paths of the required files lead.
-/
theorem framed_of_accepted {now : Timestamp} {outcome : Outcome} {report : PromotionReport}
    (wf : tree.WellFormed) (valid : gate.rules.Valid) (unparked : gate.Unparked)
    (run : (gate.program now (gate.inspect tree)).Yields .any tree outcome after)
    (returned : outcome.report = .ok report) (isAccepted : report.ok = true)
    : ∃ (name : Bytes) (fresh : gate.Fresh tree name) (site : PromotionSite)
          (files : List StagedFile) (between first : FileTree),
        site.toPromotionGround = fresh.ground wf
        ∧ (gate.route.commit gate.rules.requiredFiles).Yields .any tree (.ok files) between
        ∧ (Operation.createDirectories gate.outputRoot).Ends between (.ok ()) first
        ∧ site.Framed (gate.Targets tree) first
        ∧ report.Reported gate.outputRoot site.root first after := by
  obtain ⟨files, between, first, root, passed, _, commit, made, reported⟩ :=
    committed_of_returned Conduct.lawful_any wf run returned isAccepted
  obtain ⟨_, _, _, _, _, checked, _, _⟩ := passed_of_inspect passed
  obtain ⟨name, fresh, site, same, framed⟩ :=
    commit_framed wf valid unparked (readable_of_findings checked) Conduct.lawful_any commit
  obtain ⟨_, outputRoot, ways, _⟩ := Fresh.ground_eq same
  have way : site.outputRoot.written ∈ site.ways := by
    rw [outputRoot, ways]
    exact List.mem_cons_self
  -- The output directory is made once more for the report, though it stands there by now.
  have framed := framed.extended (extended_createDirectories framed.wellFormed framed.like
    framed.covers (fun _ => rfl) way (List.prefix_refl _) (outputRoot ▸ made))
  obtain ⟨left, course⟩ := reported.course
  obtain rfl := PromotionSite.root_of_course framed.like (outputRoot ▸ course)
  exact ⟨name, fresh, site, files, between, first, same, commit, made, framed, reported⟩

/-- When a draft is accepted, what stood in the tree still stands exactly when it did not stand below
a place to which the path of a required file leads; such places themselves and that of the report
apart. What is new is a required file, the report, or a directory on the ways of the promotion.
-/
theorem accepted_frame {now : Timestamp} {outcome : Outcome} {report : PromotionReport}
    (wf : tree.WellFormed) (valid : gate.rules.validate = .ok ()) (unparked : gate.Unparked)
    (run : (gate.program now (gate.inspect tree)).Yields .any tree outcome after)
    (returned : outcome.report = .ok report) (isAccepted : report.ok = true)
    : ∃ root,
        tree.Leads (gate.outputRoot.start tree.here) gate.outputRoot.written root
        ∧ (∀ place entry,
            tree.get? place = some entry
            → ¬ gate.Targets tree place
            → place ≠ reportPlace root
            → (after.get? place = some entry
              ↔ ¬ ∃ above, gate.Targets tree above ∧ above <+: place))
        ∧ ∀ place entry,
            tree.get? place = none
            → after.get? place = some entry
            → gate.Targets tree place
              ∨ place = reportPlace root
              ∨ entry.isDirectory
                ∧ ∃ way ∈ gate.ways, tree.Toward (gate.outputRoot.start tree.here) way place := by
  obtain ⟨name, fresh, site, _, _, first, same, _, _, framed, reported⟩ := framed_of_accepted wf
    (RuleSet.validate_eq_ok.mp valid) unparked run returned isAccepted
  obtain ⟨base, outputRoot, ways, _⟩ := Fresh.ground_eq same
  have leads := site.leads
  rw [base, outputRoot] at leads
  obtain ⟨kept, added⟩ := frame_of_reported framed reported
  rw [base] at kept added
  refine ⟨site.root, leads, kept, fun place entry free found => ?_⟩
  refine (added place entry free found).imp_right (Or.imp_right fun ⟨isDirectory, _, way⟩ => ?_)
  rw [base, outputRoot, ways] at way
  exact ⟨isDirectory, way⟩

/-- Two files are promoted, one of them in the place of a directory. -/
theorem accepted_frame_replaced
    : ∃ report root,
        (nestedGate.run default replacedTree).1.report = .ok report
        ∧ report.ok = true
        ∧ ∀ place entry,
            replacedTree.get? place = some entry
            → ¬ nestedGate.Targets replacedTree place
            → place ≠ reportPlace root
            → ((nestedGate.run default replacedTree).2.get? place = some entry
              ↔ ¬ ∃ above, nestedGate.Targets replacedTree above ∧ above <+: place) := by
  have wf := Edit.wellFormed_applyAll wellFormed_empty replacedTree_made
  have unparked : nestedGate.Unparked := unparked_of_heads (by decide +kernel)
  have run := FileProgram.yields_run
    (nestedGate.program default (nestedGate.inspect replacedTree)) wf
  have decided
      : ((nestedGate.program default ⟨[], [], [], none⟩).run replacedTree).1.report.toOption.map
          PromotionReport.ok
        = some true := by
    decide +kernel
  rw [← inspect_replacedTree] at decided
  unfold PromotionGate.run
  obtain ⟨report, returned, isAccepted⟩ := Except.toOption_map_eq_some.mp decided
  obtain ⟨root, _, kept, _⟩ :=
    accepted_frame wf (by decide +kernel) unparked run returned isAccepted
  exact ⟨report, root, returned, isAccepted, kept⟩

/-- The file in that directory is lost, though the draft is accepted. -/
theorem lost_with_directory
    : (nestedGate.run default replacedTree).1.report.toOption.map PromotionReport.ok = some true
      ∧ replacedTree.readFile (.ofString "out/a/old") = .ok (Path.bytesOf "old")
      ∧ ((nestedGate.run default replacedTree).2.readFile (.ofString "out/a/old")).toOption
        = none := by
  unfold PromotionGate.run
  rw [inspect_replacedTree]
  decide +kernel

end PromotionGate

end Vetting
