import Vetting.Proofs.Promotion.ReportFile
import Vetting.Proofs.Promotion.Settling

/-! Files that have been put into place. The directory for copies can always be removed then, the
files stay where they are when the report is written, and their paths lead to them.
-/

namespace Vetting

open FileTree PromotionGround

namespace PromotionSite

variable {site : PromotionSite} {tree after : FileTree}

-----------------------------------------------------------------------------------------
-- Files in their places
-----------------------------------------------------------------------------------------

/-- Files stand where they belong, nothing else is new but directories, and the fresh name is not
used.
-/
structure Placed (site : PromotionSite) (files : List StagedFile) (tree : FileTree) : Prop where
  wellFormed : tree.WellFormed
  like : Resembles [site.name] site.base tree
  covers : Covers [site.name] site.base tree
  clear : ∀ place entry, tree.get? place = some entry → site.name ∉ place
  settled : ∀ file ∈ files, HoldsAt tree (site.filePlace file) file.digest
  landed : ∀ file ∈ files, site.Landed file tree
  others
    : ∀ place entry,
        tree.get? place = some entry
        → site.base.get? place = some entry
          ∨ entry.isDirectory ∧ site.Made place
          ∨ ∃ file ∈ files, place = site.filePlace file

/-- The path of a moved file leads on where all directories and links still stand that hide nothing.
-/
theorem Landed.retained {file : StagedFile} (landed : site.Landed file tree)
    (like : Resembles [site.name] site.base tree)
    (retains : tree.Retains [site.name] after)
    : site.Landed file after := by
  obtain ⟨left, course⟩ := landed.course
  exact ⟨landed.usable, landed.short, left,
    course.retained (like.linksClear linksClear) retains (clear_singleton.mpr site.startClear)
      (clear_singleton.mpr site.outputClear)⟩

/-- The directory for copies can be removed when the path of the output directory leads there. -/
theorem Landed.vacated {installed : List InstalledFile} {file : StagedFile}
    (landed : site.Landed file tree) (undoable : site.Undoable installed tree)
    (usable : Usable site.stagingPath) (short : site.name.length ≤ nameLimit)
    {answer : Except FileFault Unit}
    (ends : (Operation.removeDirectory site.stagingPath).Ends tree answer after)
    : site.Vacated tree after := by
  obtain ⟨left, course⟩ := landed.course
  obtain ⟨mode, directory⟩ := undoable.directory
  have root : ∃ mode, tree.get? site.root = some (.directory mode) :=
    undoable.wellFormed.above (List.cons_ne_nil _ _) directory
  have resolved : tree.resolve false site.stagingPath = .ok site.staging := by
    refine (PromotionReport.resolve_join site.proper).mpr ⟨usable, left, site.root, ?_, root, short,
      rfl⟩
    rw [start_eq undoable.restorable.like rfl]
    exact course
  have removed := removeDirectory_eq_ok resolved directory
  cases answer with
  | error fault => exact absurd (removed.symm.trans ends.2) (by simp)
  | ok _ => exact undoable.vacated ends

/-- Once files stand in their places, the directory for copies is removed, and this cannot fail. -/
theorem Settling.placed {installed : List InstalledFile} {done : List StagedFile}
    (settling : site.Settling installed done [] tree) (some : done ≠ [])
    (usable : Usable site.stagingPath) (short : site.name.length ≤ nameLimit)
    {answer : Except FileFault Unit}
    (ends : (Operation.removeDirectory site.stagingPath).Ends tree answer after)
    : site.Placed done after := by
  have like := settling.restorable.like
  obtain ⟨last, member⟩ := List.exists_mem_of_ne_nil done some
  have vacated := (settling.landed last member).vacated settling.toUndoable usable short ends
  refine ⟨vacated.wellFormed, vacated.like like, vacated.covers settling.restorable.covers,
    vacated.clear, ?_, ?_, ?_⟩
  · intro file member
    have clear := filePlace_clear (settling.bound file member)
    exact (settling.settled file member).same (vacated.kept _ clear)
  · intro file member
    refine (settling.landed file member).retained like fun place entry clear _ found => ?_
    rw [vacated.kept place (clear_singleton.mp clear), found]
  · intro place entry found
    have clear := vacated.clear place entry found
    rw [vacated.kept place clear] at found
    exact settling.others place entry clear found

/-- Files stay in their places when directories are made. -/
theorem Placed.extended {files : List StagedFile} (placed : site.Placed files tree)
    (extended : site.Extended tree after)
    : site.Placed files after := by
  have keeps : ∀ place entry, tree.get? place = some entry → after.get? place = some entry :=
    fun place entry found =>
      extended.grows.keeps place entry (clear_singleton.mpr (placed.clear place entry found)) found
  refine ⟨extended.wellFormed, placed.like.grown extended.grows fun place made => made.1,
    placed.covers.grown extended.grows, ?_, ?_, ?_, ?_⟩
  · intro place entry found inside
    rw [extended.within place inside] at found
    exact placed.clear place entry found inside
  · intro file member
    have held := placed.settled file member
    obtain ⟨content, mode, found, _⟩ := id held
    exact held.same ((keeps _ _ found).trans found.symm)
  · intro file member
    exact (placed.landed file member).retained placed.like
      fun place entry _ _ found => keeps place entry found
  · intro place entry found
    cases stood : tree.get? place with
    | some old =>
        rw [keeps place old stood] at found
        obtain rfl := Option.some.inj found
        exact placed.others place old stood
    | none =>
        by_cases inside : site.name ∈ place
        · rw [extended.within place inside, stood] at found
          exact absurd found (by simp)
        · exact Or.inr (Or.inl (extended.grows.adds place entry (clear_singleton.mpr inside) stood
            found))

/-- The path of a file in its place leads to it. -/
theorem lookup_filePlace (wf : tree.WellFormed) (here : tree.here = site.base.here)
    {file : StagedFile} (binds : site.Binds file) (landed : site.Landed file tree) {entry : Entry}
    (found : tree.get? (site.filePlace file) = some entry)
    : tree.lookup false file.target = .ok (site.filePlace file, entry) := by
  obtain ⟨names, absolute⟩ := names_target binds.toAdmits binds.target
  obtain ⟨front, last, split⟩ : ∃ front last, SafePath.names file.path = front ++ [last] :=
    ⟨_, _, (List.dropLast_append_getLast binds.nonempty).symm⟩
  have proper := binds.proper
  have short := landed.short
  rw [split, List.forall_mem_append] at proper short
  have directories
      : ∀ begin,
          begin <+: front → ∃ mode, tree.get? (site.root ++ begin) = some (.directory mode) := by
    intro begin ⟨rest, joined⟩
    have below : tree.get? (site.root ++ begin ++ (rest ++ [last])) = some entry := by
      rw [← found, filePlace, split, ← joined]
      simp
    exact wf.above (by simp) below
  obtain ⟨left, course⟩ := landed.course
  have whole := course.append (.through left proper.1 short.1 directories)
  have written : file.target.names = (site.outputRoot.written ++ front) ++ [last] := by
    rw [names, split, List.append_assoc]
  have resolved : tree.resolve false file.target = .ok (site.filePlace file) := by
    refine (resolve_concat written).mpr ⟨landed.usable, left, site.root ++ front, ?_,
      directories front (List.prefix_refl _), by simpa using short.2, ?_⟩
    · rw [Path.start, absolute, here]
      exact whole
    · rw [step_of_isName _ (by simpa using proper.2), filePlace, split, List.append_assoc]
  exact lookup_eq_ok.mpr ⟨resolved, found⟩

end PromotionSite

end Vetting
