import Vetting.Proofs.Promotion.Phases

/-! Gathering copies while others work elsewhere. Until files are moved, a promotion changes nothing but
the directory for its copies, and makes directories on its ways: the required files are as they were,
and each copy holds the bytes of the draft.
-/

namespace Vetting

open FileTree PromotionStep

namespace Precinct

variable {precinct : Precinct} {tree later after : FileTree} {path : String} {copied : List String}

/-- Where the required files are as they were, none has been switched. -/
theorem AsBefore.switched (before : precinct.AsBefore tree)
    : precinct.Switched tree [] precinct.gate.destinations where
  toStanding := before.toStanding
  order := rfl
  delivered := by simp
  first path head := Or.inl (before.kept path (List.mem_of_head? head))
  others path member := before.kept path (List.mem_of_mem_tail member)

theorem AsBefore.guarantee (before : precinct.AsBefore after)
    (spares : Spares precinct.Owns precinct.Passes tree after)
    : precinct.terms.guarantee tree after :=
  ⟨spares, [], _, before.switched⟩

-----------------------------------------------------------------------------------------
-- Changes in the directory for copies
-----------------------------------------------------------------------------------------

variable (precinct)

/-- Changes in the directory for copies, besides directories on the ways. -/
abbrev SparesGoals (tree after : FileTree) : Prop :=
  Spares (fun place => precinct.staging <+: place) precinct.Passes tree after

variable {precinct}

theorem SparesGoals.own (spares : precinct.SparesGoals tree after)
    : Spares precinct.Owns precinct.Passes tree after :=
  spares.mono (fun _ => Or.inl) fun _ made _ => made

theorem SparesGoals.get?_goal (spares : precinct.SparesGoals tree after)
    (listed : path ∈ precinct.gate.destinations) (way : Place)
    : after.get? (precinct.goal path ++ way) = tree.get? (precinct.goal path ++ way) :=
  spares.get?_eq (not_staging_goal listed way)
    fun passes => not_owns_of_passes passes (owns_goal listed way)

/-- The path of the output directory goes on to lead there. -/
theorem SparesGoals.founded (spares : precinct.SparesGoals tree after)
    (founded : tree.Founded precinct.start precinct.gate.outputRoot.written)
    : after.Founded precinct.start precinct.gate.outputRoot.written := by
  intro front isFront
  obtain ⟨mode, found⟩ := founded front isFront
  refine ⟨mode, spares.keeps _ _ (fun inside => ?_) found⟩
  exact not_owns_of_passes (.of_written isFront) (Or.inl inside)

theorem Standing.sparesGoals (standing : precinct.Standing tree)
    (spares : precinct.SparesGoals tree after)
    : precinct.Standing after :=
  standing.spared spares fun _ passes inside => not_owns_of_passes passes (Or.inl inside)

theorem AsBefore.sparesGoals (before : precinct.AsBefore tree)
    (spares : precinct.SparesGoals tree after)
    : precinct.AsBefore after :=
  ⟨before.toStanding.sparesGoals spares,
    fun path listed way => (spares.get?_goal listed way).trans (before.kept path listed way)⟩

theorem Waiting.sparesGoals (waiting : precinct.Waiting tree)
    (spares : precinct.SparesGoals tree after)
    : precinct.Waiting after := by
  refine ⟨waiting.toAsBefore.sparesGoals spares, fun place entry found => ?_⟩
  refine spares.keeps _ _ (fun inside => ?_) (waiting.core place entry found)
  have clear := precinct.fresh.clear_of_get? precinct.wellFormed (precinct.inCore _ _ found).1
  exact clear (inside.subset (by simp [staging]))

variable (precinct)

/-- The draft can be read, and copies of some required files stand in the directory for them. -/
structure Gathering (tree : FileTree) (copied : List String) : Prop
    extends precinct.Waiting tree, precinct.Grounded tree, precinct.Loaded tree copied

variable {precinct}

theorem Gathering.undisturbed (calm : precinct.Undisturbed tree later)
    (gathering : precinct.Gathering tree copied)
    : precinct.Gathering later copied :=
  ⟨Waiting.undisturbed calm gathering.toWaiting, Grounded.undisturbed calm gathering.toGrounded,
    Loaded.undisturbed calm gathering.toLoaded⟩

/-- Once the directory for copies has been made, copies can be gathered. -/
theorem Waiting.scratched (waiting : precinct.Waiting tree)
    (made : tree.createDirectory precinct.stagingPath = .ok after)
    : precinct.SparesGoals tree after ∧ precinct.Gathering after [] := by
  obtain ⟨place, created⟩ := waiting.wellFormed.createDirectory made
  obtain ⟨names, absolute⟩ := Path.names_closed precinct.stagingPath
  rw [written_stagingPath] at names
  have starts := waiting.start_eq (absolute.trans isAbsolute_stagingPath)
  have free := waiting.linkFree _ List.mem_cons_self
  obtain rfl : place = precinct.staging := by
    rw [LinkFree.resolve_eq (by simpa using free) (by simp) starts names created.resolved]
    exact foldl_stagingPath
  have spares : precinct.SparesGoals tree after := created.spares (Or.inl (List.prefix_refl _))
  have directory : after.get? precinct.staging = some (.directory Entry.directoryMode) := by
    rw [created.get?_eq, if_pos rfl]
  refine ⟨spares, waiting.sparesGoals spares, ⟨?_, _, directory⟩, ?_, by simp⟩
  · obtain ⟨_, left, middle, course, directory, _⟩ := (resolve_concat names).mp created.resolved
    rw [starts] at course
    intro front isFront
    obtain ⟨mode, found⟩ := course.founded free directory front isFront
    exact ⟨mode, created.keeps found⟩
  · intro way entry _ found
    rw [created.get?_eq] at found
    split at found
    · exact Or.inl (Option.some.inj found ▸ rfl)
    · rename_i further
      rw [waiting.wellFormed.below_none (by simpa using further) (by simp [created.free])] at found
      exact absurd found (by simp)

/-- Where a tree has only got directories, the directory for copies still stands. -/
theorem Grounded.grown {made : Place → Prop} (grounded : precinct.Grounded tree)
    (spares : Spares (fun _ => False) made tree after)
    : precinct.Grounded after where
  founded := by
    intro front isFront
    obtain ⟨mode, found⟩ := grounded.founded front isFront
    exact ⟨mode, spares.keeps _ _ id found⟩
  directory := by
    obtain ⟨mode, found⟩ := grounded.directory
    exact ⟨mode, spares.keeps _ _ id found⟩

/-- Where a tree has only got directories, the copies are as they were. -/
theorem Loaded.grown {made : Place → Prop} (loaded : precinct.Loaded tree copied)
    (spares : Spares (fun _ => False) made tree after)
    : precinct.Loaded after copied where
  plain := by
    intro way entry unparked found
    cases before : tree.get? (precinct.staging ++ way) with
    | none => exact Or.inl (spares.adds _ _ id before found).1
    | some old =>
        have same := spares.keeps _ _ id before
        obtain rfl := Option.some.inj (same.symm.trans found)
        exact loaded.plain way old unparked before
  copies := by
    intro path member
    obtain ⟨content, mode, found, same⟩ := loaded.copies path member
    exact ⟨content, mode, spares.keeps _ _ id found, same⟩

/-- Making the directory for a copy. -/
theorem Gathering.createDirectories (gathering : precinct.Gathering tree copied)
    (listed : path ∈ precinct.gate.destinations) {parent : Path}
    (above : (precinct.stagingPath.below (SafePath.names path)).parent? = some parent)
    {answer : Except FileFault Unit}
    (ends : (Operation.createDirectories parent).Ends tree answer after)
    : precinct.SparesGoals tree after ∧ precinct.Gathering after copied := by
  have proper : ∀ name ∈ SafePath.names path, Path.IsName name :=
    fun _ => SafePath.isName_of_mem_names
  obtain ⟨front, absolute⟩ := Path.parent_below (nonempty listed) proper above
  have way : parent.written <+: precinct.gate.outputRoot.written ++ precinct.name
      :: (SafePath.names path).dropLast := by
    simpa [written_stagingPath] using front
  have free := gathering.toStanding.linkFree_staging
    (fun name member => proper name (List.dropLast_subset _ member))
    fun front isFront => gathering.noLinks listed front (isFront.trans (List.dropLast_prefix _))
  have spares := ends.spares_createDirectories gathering.wellFormed free
    (fun some => gathering.toStanding.start_eq ((absolute some).trans isAbsolute_stagingPath)) way
  have goals : precinct.SparesGoals tree after := by
    refine spares.mono (by simp) ?_
    rintro _ ⟨names, isFront, rfl⟩ outside
    rcases List.prefix_or_prefix_of_prefix (isFront.trans way) (List.prefix_append _ _) with
      short | ⟨rest, rfl⟩
    · exact .of_written short
    have isRest := (List.prefix_append_right_inj _).mp (isFront.trans way)
    cases rest with
    | nil => exact .of_written (by simp)
    | cons name rest =>
        obtain ⟨rfl, inner⟩ := List.cons_prefix_cons.mp isRest
        refine absurd ?_ outside
        rw [foldl_staging fun name member =>
          proper name (List.dropLast_subset _ (inner.subset member))]
        exact List.prefix_append _ _
  exact ⟨goals, gathering.toWaiting.sparesGoals goals, gathering.toGrounded.grown spares,
    gathering.toLoaded.grown spares⟩

/-- Writing where the path of a copy leads. -/
theorem Gathering.sparesGoals_written (gathering : precinct.Gathering tree copied)
    (listed : path ∈ precinct.gate.destinations) {place : Place} {content : Bytes} {mode : Nat}
    (written
      : tree.Written (precinct.stagingPath.below (SafePath.names path)) place content mode after)
    : place = precinct.copyPlace path ∧ precinct.SparesGoals tree after := by
  obtain rfl := gathering.toLoaded.resolve_copy gathering.toStanding listed written.resolved
  exact ⟨rfl, written.spares (List.prefix_append _ _)⟩

/-- Writing a copy, with the bytes that the draft has. -/
theorem Gathering.written (gathering : precinct.Gathering tree copied)
    (listed : path ∈ precinct.gate.destinations)
    (others : ∀ other ∈ copied, SafePath.Apart path other) {place : Place} {content : Bytes}
    {mode : Nat}
    (drafted : ∀ bytes, precinct.Drafted path bytes → content = bytes)
    (written
      : tree.Written (precinct.stagingPath.below (SafePath.names path)) place content mode after)
    : precinct.SparesGoals tree after ∧ precinct.Gathering after (copied ++ [path]) := by
  obtain ⟨rfl, spares⟩ := gathering.sparesGoals_written listed written
  have directory : after.get? precinct.staging = tree.get? precinct.staging := by
    rw [written.get?_eq, if_neg]
    simp [copyPlace, nonempty listed]
  refine ⟨spares, gathering.toWaiting.sparesGoals spares,
    ⟨spares.founded gathering.founded, directory ▸ gathering.directory⟩, ?_, ?_⟩
  · intro way entry unparked found
    rw [written.get?_eq] at found
    split at found
    · exact Or.inr (Option.some.inj found ▸ rfl)
    · exact gathering.plain way entry unparked found
  · intro other member
    obtain member | same := List.mem_append.mp member
    · obtain ⟨bytes, mode, found, same⟩ := gathering.copies other member
      refine ⟨bytes, mode, ?_, same⟩
      rw [written.get?_eq, if_neg, found]
      intro same
      have inside : precinct.copyPlace path <+: precinct.copyPlace other ++ [] := by simp [same]
      exact not_copy_copy (others other member) [] inside
    · obtain rfl := List.mem_singleton.mp same
      exact ⟨content, mode, by rw [written.get?_eq, if_pos rfl], drafted⟩

-----------------------------------------------------------------------------------------
-- Copying the required files
-----------------------------------------------------------------------------------------

end Precinct

end Vetting
