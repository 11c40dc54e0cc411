import Vetting.Proofs.Promotion.Installing

/-! The runs in which files are put into place: what they go through, and what a run that stops
leaves behind once the directory for copies has been removed.
-/

namespace Vetting

open FileTree PromotionGround PromotionStep

-----------------------------------------------------------------------------------------
-- Parts of a run
-----------------------------------------------------------------------------------------

/-- Copying the required files and moving the copies into place. -/
def PromotionRoute.transfer (route : PromotionRoute) (staging : Path) (required : List String)
    : PromotionStep (List StagedFile) := do
  let staged ← required.mapM (route.stageFile staging)
  installAll staging [] staged
  return staged

variable {conduct : Conduct} {route : PromotionRoute} {required : List String}
  {tree after : FileTree}

/-- A transfer stops while copies are made or while they are moved, or else tells of all copies. -/
theorem transfer_yields {staging : Path} {result : Except PromotionFault (List StagedFile)}
    (run : (route.transfer staging required).Yields conduct tree result after)
    : (∃ fault,
        result = .error fault
        ∧ PromotionStep.Yields conduct (required.mapM (route.stageFile staging)) tree
            (.error fault) after)
      ∨ ∃ files between,
          PromotionStep.Yields conduct (required.mapM (route.stageFile staging)) tree (.ok files)
            between
          ∧ ((∃ fault,
                result = .error fault
                ∧ (PromotionRoute.installAll staging [] files).Yields conduct between
                    (.error fault) after)
            ∨ result = .ok files
              ∧ (PromotionRoute.installAll staging [] files).Yields conduct between (.ok ())
                  after) := by
  unfold PromotionRoute.transfer at run
  obtain stopped | ⟨files, between, copied, run⟩ := yields_bind.mp run
  · exact Or.inl stopped
  refine Or.inr ⟨files, between, copied, ?_⟩
  obtain stopped | ⟨_, last, moved, finish⟩ := yields_bind.mp run
  · exact Or.inl stopped
  · obtain ⟨rfl, rfl⟩ := yields_pure.mp finish
    exact Or.inr ⟨rfl, moved⟩

/-- A promotion of files stops when the output directory or the directory for copies cannot be made;
else files are transferred, and the directory for copies is removed.
-/
theorem commit_yields {result : Except PromotionFault (List StagedFile)}
    (run : (route.commit required).Yields conduct tree result after)
    : (∃ stopped fault,
        result = .error stopped
        ∧ conduct tree (.createDirectories route.outputRoot) (.error fault) after)
      ∨ ∃ first,
          conduct tree (.createDirectories route.outputRoot) (.ok ()) first
          ∧ ((∃ stopped fault,
                result = .error stopped
                ∧ conduct first
                    (.createScratch route.outputRoot PromotionRoute.stagingStart) (.error fault)
                    after)
            ∨ ∃ staging second third answer,
                conduct first (.createScratch route.outputRoot PromotionRoute.stagingStart)
                  (.ok staging) second
                ∧ (route.transfer staging required).Yields conduct second result third
                ∧ conduct third (.removeDirectory staging) answer after) := by
  unfold PromotionRoute.commit at run
  obtain ⟨fault, stopped, made⟩ | ⟨_, first, made, run⟩ := yields_request_bind.mp run
  · exact Or.inl ⟨_, fault, stopped, made⟩
  refine Or.inr ⟨first, made, ?_⟩
  obtain ⟨fault, stopped, scratched⟩ | ⟨staging, second, scratched, run⟩ :=
    yields_request_bind.mp run
  · exact Or.inl ⟨_, fault, stopped, scratched⟩
  obtain ⟨outcome, third, transferred, run⟩ := yields_lift_bind.mp run
  obtain ⟨answer, last, removed, finish⟩ := yields_attempt_bind.mp run
  obtain ⟨rfl, rfl⟩ := yields_mk.mp finish
  exact Or.inr ⟨staging, second, third, answer, scratched, transferred, removed⟩

/-- A promotion of files that does not stop makes the two directories, copies all files, moves all
copies and removes the directory for copies.
-/
theorem commit_yields_ok {files : List StagedFile}
    (run : (route.commit required).Yields conduct tree (.ok files) after)
    : ∃ first staging second third last answer,
        conduct tree (.createDirectories route.outputRoot) (.ok ()) first
        ∧ conduct first (.createScratch route.outputRoot PromotionRoute.stagingStart) (.ok staging)
            second
        ∧ PromotionStep.Yields conduct (required.mapM (route.stageFile staging)) second (.ok files)
            third
        ∧ (PromotionRoute.installAll staging [] files).Yields conduct third (.ok ()) last
        ∧ conduct last (.removeDirectory staging) answer after := by
  obtain ⟨_, _, impossible, _⟩ | ⟨first, made, run⟩ := commit_yields run
  · exact absurd impossible (by simp)
  obtain ⟨_, _, impossible, _⟩ | ⟨staging, second, last, answer, scratched, transferred, removed⟩ :=
    run
  · exact absurd impossible (by simp)
  obtain ⟨_, impossible, _⟩ | ⟨copies, third, copied, moved⟩ := transfer_yields transferred
  · exact absurd impossible (by simp)
  obtain ⟨_, impossible, _⟩ | ⟨same, moved⟩ := moved
  · exact absurd impossible (by simp)
  obtain rfl := Except.ok.inj same
  exact ⟨first, staging, second, third, last, answer, made, scratched, copied, moved, removed⟩

-----------------------------------------------------------------------------------------
-- Before and after there is a directory for copies
-----------------------------------------------------------------------------------------

namespace PromotionGround

variable {ground : PromotionGround}

/-- A tree in which the fresh name is not used has nothing new but directories. -/
structure Clean (ground : PromotionGround) (tree : FileTree) : Prop where
  wellFormed : tree.WellFormed
  grown : ground.Grown ground.base tree
  clear : ∀ place entry, tree.get? place = some entry → ground.name ∉ place

theorem clean_base : ground.Clean ground.base :=
  ⟨ground.wellFormed, .refl .., fun _ _ found => baseClear found⟩

theorem Clean.like (clean : ground.Clean tree) : Resembles [ground.name] ground.base tree :=
  clean.grown.resembles

theorem Clean.covers (clean : ground.Clean tree) : Covers [ground.name] ground.base tree :=
  fun place entry clear found => Or.inl (clean.grown.keeps place entry clear found)

theorem Clean.extended (clean : ground.Clean tree) (extended : ground.Extended tree after)
    : ground.Clean after := by
  refine ⟨extended.wellFormed, clean.grown.trans extended.grows, ?_⟩
  intro place entry found inside
  rw [extended.within place inside] at found
  exact clean.clear place entry found inside

/-- Making the output directory, whether it succeeds or not. -/
theorem Clean.createRoot (clean : ground.Clean tree)
    (way : ground.outputRoot.written ∈ ground.ways) {answer : Except FileFault Unit}
    (ends : (Operation.createDirectories ground.outputRoot).Ends tree answer after)
    : ground.Clean after :=
  clean.extended (extended_createDirectories clean.wellFormed clean.like clean.covers
    (fun _ => rfl) way (List.prefix_refl _) ends)

/-- The path of a name in the output directory leads to it there. -/
theorem resolve_named (like : Resembles [ground.name] ground.base tree) {path : Path}
    (absolute : path.isAbsolute = ground.outputRoot.isAbsolute) {name : Bytes}
    (proper : Path.IsName name) (names : path.names = ground.outputRoot.written ++ [name])
    {place : Place} (resolved : tree.resolve false path = .ok place)
    : ∃ root,
        ground.base.Leads (ground.outputRoot.start ground.base.here) ground.outputRoot.written root
        ∧ place = root ++ [name]
        ∧ ∃ mode, tree.get? root = some (.directory mode) := by
  obtain ⟨_, left, root, course, directory, _, rfl⟩ := (resolve_concat names).mp resolved
  rw [start_eq like absolute] at course
  obtain ⟨leads, _⟩ := course.leads linksClear like
    (clear_singleton.mpr ground.startClear) (clear_singleton.mpr ground.outputClear)
  exact ⟨root, leads, step_of_isName root proper, directory⟩

/-- A directory for copies that has been made is empty. -/
theorem Clean.copying (clean : ground.Clean tree)
    (made : tree.createDirectory (ground.outputRoot.join ground.name) = .ok after)
    : ∃ site : PromotionSite, site.toPromotionGround = ground ∧ site.Copying after := by
  obtain ⟨place, created⟩ := clean.wellFormed.createDirectory made
  obtain ⟨names, absolute⟩ := Path.names_closed (ground.outputRoot.join ground.name)
  rw [Path.written_join ground.proper] at names
  obtain ⟨root, leads, rfl, _⟩ := resolve_named clean.like
    (absolute.trans (Path.isAbsolute_join _ ground.proper)) ground.proper names created.resolved
  have inside : ground.name ∈ root ++ [ground.name] := by simp
  refine ⟨⟨ground, root, leads⟩, rfl, created.wellFormed, ?_, ?_, ?_, ?_⟩
  · exact ⟨_, by rw [PromotionSite.staging, created.get?_eq, if_pos rfl]⟩
  · intro other entry found hidden
    rw [created.get?_eq] at found
    split at found
    · rename_i same
      exact same ▸ List.prefix_refl _
    · exact absurd hidden (clean.clear other entry found)
  · exact clean.grown.trans
      (created.grows fun clear => absurd inside (clear_singleton.mp clear))
  · intro name rest entry found
    rw [created.get?_eq, if_neg (by simp [PromotionSite.staging])] at found
    exact absurd (by simp [PromotionSite.staging]) (clean.clear _ entry found)

end PromotionGround

namespace PromotionSite

variable {site : PromotionSite}

/-- While copies are made, no move has been made. -/
theorem Copying.undoable (copying : site.Copying tree) : site.Undoable [] tree :=
  ⟨copying.wellFormed, copying.directory, copying.confined, .start copying.grown⟩

/-- When a transfer stops, all moves have been undone. -/
theorem Copying.transfer_error (copying : site.Copying tree) (lawful : conduct.Lawful)
    (removes : conduct.RemovesFiles) (restores : conduct.Restores site.stagingPath)
    (same : route.outputRoot = site.outputRoot)
    (admits
      : ∀ path ∈ required, SafePath.names path ≠ [] → site.Admits (SafePath.names path))
    {fault : PromotionFault}
    (run : (route.transfer site.stagingPath required).Yields conduct tree (.error fault) after)
    : site.Undoable [] after := by
  rcases transfer_yields run with ⟨_, _, copied⟩ | ⟨files, between, copied, moved⟩
  · exact (copying.stageAll lawful same admits copied).1.copying.undoable
  obtain ⟨recopied, kept⟩ := copying.stageAll lawful same admits copied
  obtain ⟨verified, areFiles, _⟩ := kept files rfl
  rcases moved with ⟨_, _, stopped⟩ | ⟨impossible, _⟩
  · have installing := recopied.copying.installing (fun file member => ?_) areFiles
    · exact installing.installAll_error lawful removes restores stopped
    · obtain ⟨path, _, verified⟩ := verified.partner_left file member
      exact verified.toBinds
  · exact absurd impossible (by simp)

end PromotionSite

-----------------------------------------------------------------------------------------
-- Removing the directory for copies
-----------------------------------------------------------------------------------------

namespace PromotionSite

variable {site : PromotionSite}

/-- The directory for copies is gone with all that was in it, and nothing else has changed. -/
structure Vacated (site : PromotionSite) (tree after : FileTree) : Prop where
  wellFormed : after.WellFormed
  here : after.here = tree.here
  kept : ∀ place, site.name ∉ place → after.get? place = tree.get? place
  clear : ∀ place entry, after.get? place = some entry → site.name ∉ place

theorem Undoable.vacated {installed : List InstalledFile} (undoable : site.Undoable installed tree)
    (removed : tree.removeDirectory site.stagingPath = .ok after)
    : site.Vacated tree after := by
  obtain ⟨mode, directory⟩ := undoable.directory
  obtain ⟨place, resolved, gone⟩ := undoable.wellFormed.removeDirectory removed
  obtain rfl : place = site.staging := by
    have names : site.stagingPath.names = site.outputRoot.written ++ site.name :: [] := by
      rw [stagingPath, Path.names_join site.proper]
    have := resolve_within undoable.restorable.like directory isAbsolute_stagingPath names
      (by simp) (fun _ some isFront => absurd (List.prefix_nil.mp isFront) some) resolved
    simpa using this
  refine ⟨gone.wellFormed, gone.here, ?_, ?_⟩
  · exact fun place clear => gone.get?_other fun inside => clear (mem_of_below_staging inside)
  · intro place entry found inside
    rw [gone.get?_eq place (List.ne_nil_of_mem inside)] at found
    split at found
    · exact absurd found (by simp)
    · rename_i outside
      exact outside (undoable.confined place entry found inside)

theorem Vacated.like (vacated : site.Vacated tree after)
    (like : Resembles [site.name] site.base tree)
    : Resembles [site.name] site.base after := by
  refine like.shrunk vacated.here fun place entry clear found => ?_
  rw [← vacated.kept place (clear_singleton.mp clear), found]

theorem Vacated.covers (vacated : site.Vacated tree after)
    (covers : Covers [site.name] site.base tree)
    : Covers [site.name] site.base after := by
  intro place entry clear found
  have hidden := clear_singleton.mp clear
  rcases covers place entry clear found with stands | ⟨above, content, mode, isAbove, file⟩
  · exact Or.inl ((vacated.kept place hidden).trans stands)
  · refine Or.inr ⟨above, content, mode, isAbove, ?_⟩
    rw [vacated.kept above fun inside => hidden (isAbove.subset inside), file]

/-- Once moves have been undone and the directory for copies has been removed, the fresh name is not
used any more.
-/
theorem Undoable.clean (undoable : site.Undoable [] tree)
    (removed : tree.removeDirectory site.stagingPath = .ok after)
    : site.Clean after := by
  have vacated := undoable.vacated removed
  cases undoable.restorable with
  | start grown =>
      refine ⟨vacated.wellFormed, ⟨vacated.here.trans grown.here, ?_, ?_⟩, vacated.clear⟩
      · intro other entry clear found
        rw [vacated.kept other (clear_singleton.mp clear)]
        exact grown.keeps other entry clear found
      · intro other entry clear free found
        rw [vacated.kept other (clear_singleton.mp clear)] at found
        exact grown.adds other entry clear free found

end PromotionSite

end Vetting
