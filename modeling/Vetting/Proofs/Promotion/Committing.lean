import Vetting.Proofs.Promotion.Commit
import Vetting.Proofs.Promotion.Exchanging

/-! Committing while others work elsewhere. When a commit succeeds, every required file of the draft
stands in its place; when it fails, what it has moved has been moved back, and the required files are
as they were before.
-/

namespace Vetting

open FileTree PromotionStep

namespace Precinct

variable {precinct : Precinct} {tree later after : FileTree} {path : String}
  {installed : List InstalledFile} {done rest : List String} {file : StagedFile}
  {stopped : FileTree → Prop}

-----------------------------------------------------------------------------------------
-- Moves between paths
-----------------------------------------------------------------------------------------

theorem copyPlace_ne_goal (listed : path ∈ precinct.gate.destinations)
    : precinct.copyPlace path ≠ precinct.goal path := by
  intro same
  refine not_goal_staging listed (SafePath.names path) ?_
  rw [← same]
  exact List.prefix_refl _

theorem Midway.rename_copy (midway : precinct.Midway tree installed done [path] rest)
    (loaded : precinct.Loaded tree (path :: rest))
    (renamed
      : tree.rename (precinct.stagingPath.below (SafePath.names path))
          (precinct.gate.outputRoot.below (SafePath.names path))
        = .ok after)
    : tree.Moved (precinct.copyPlace path) (precinct.goal path) after
      ∧ precinct.Reachable path := by
  obtain ⟨moved, _, reachable, _⟩ := midway.wellFormed.moved_between renamed
    (fun _ => loaded.resolve_copy midway.toStanding midway.listed)
    (fun _ => midway.resolve_target midway.listed) (copyPlace_ne_goal midway.listed)
  exact ⟨moved, reachable⟩

theorem Midway.removeFile (midway : precinct.Midway tree installed done [path] rest)
    (gone
      : tree.removeFile (precinct.gate.outputRoot.below (SafePath.names path)) = .ok after)
    : tree.Removed (precinct.goal path) after := by
  obtain ⟨place, _, resolved, _, _, removed⟩ := midway.wellFormed.removeFile gone
  exact midway.resolve_target midway.listed resolved ▸ removed

-----------------------------------------------------------------------------------------
-- Between moves
-----------------------------------------------------------------------------------------

variable (precinct)

/-- Before a move: some required files have been moved, and the copies of the others stand ready. -/
structure Ready (tree : FileTree) (installed : List InstalledFile) (done rest : List String)
    : Prop
    extends precinct.Midway tree installed done [] rest, precinct.Loaded tree rest

/-- In a move: what stood at the place of a required file has been set aside, and the directories above
that place still stand.
-/
structure Emptied (tree : FileTree) (moves : List InstalledFile) (done : List String)
    (path : String) (rest : List String)
    : Prop
    extends precinct.Midway tree moves done [path] rest where
  vacant : precinct.Vacant tree path
  parked : precinct.Parked tree path moves.length
  reachable : precinct.Reachable path
  housed : precinct.Housed tree path

/-- If a path can lead to the place of a required file, nothing stood there. -/
def Overlooked (path : String) : Prop :=
  precinct.Reachable path → precinct.base.get? (precinct.goal path) = none

/-- After it has been seen to that a place is free: nothing was found there, or what was found has
been set aside.
-/
def Cleared (installed : List InstalledFile) (done : List String) (path : String)
    (rest : List String)
    : Option Path → FileTree → Prop
  | none, tree => precinct.Ready tree installed done (path :: rest) ∧ precinct.Overlooked path
  | some place, tree =>
      place = PromotionRoute.parkingPlace precinct.stagingPath installed.length
      ∧ precinct.Emptied tree installed done path rest
      ∧ precinct.Loaded tree (path :: rest)

variable {precinct}

theorem Ready.undisturbed (calm : precinct.Undisturbed tree later)
    (ready : precinct.Ready tree installed done rest)
    : precinct.Ready later installed done rest :=
  ⟨Midway.undisturbed calm ready.toMidway, Loaded.undisturbed calm ready.toLoaded⟩

theorem Emptied.undisturbed (calm : precinct.Undisturbed tree later)
    (emptied : precinct.Emptied tree installed done path rest)
    : precinct.Emptied later installed done path rest :=
  ⟨Midway.undisturbed calm emptied.toMidway,
    Vacant.undisturbed calm emptied.vacant emptied.listed,
    emptied.parked.imp (Stored.undisturbed calm), emptied.reachable,
    calm.founded (way_mem emptied.listed) emptied.housed⟩

theorem Cleared.undisturbed (calm : precinct.Undisturbed tree later) {parked : Option Path}
    (cleared : precinct.Cleared installed done path rest parked tree)
    : precinct.Cleared installed done path rest parked later := by
  cases parked with
  | none => exact ⟨Ready.undisturbed calm cleared.1, cleared.2⟩
  | some place =>
      obtain ⟨same, emptied, loaded⟩ := cleared
      exact ⟨same, Emptied.undisturbed calm emptied, Loaded.undisturbed calm loaded⟩

theorem Cleared.guarantee {parked : Option Path}
    (cleared : precinct.Cleared installed done path rest parked after)
    (spares : Spares precinct.Owns precinct.Passes tree after)
    : precinct.terms.guarantee tree after := by
  cases parked with
  | none => exact cleared.1.guarantee spares
  | some place => exact cleared.2.1.guarantee_vacant cleared.2.1.vacant spares

/-- Moving a copy to a place that is free. -/
theorem Cleared.renamed {parked : Option Path}
    (cleared : precinct.Cleared installed done path rest parked tree)
    (renamed
      : tree.rename (precinct.stagingPath.below (SafePath.names path))
          (precinct.gate.outputRoot.below (SafePath.names path))
        = .ok after)
    : Spares precinct.Owns precinct.Passes tree after
      ∧ precinct.Ready after
          (⟨precinct.gate.outputRoot.below (SafePath.names path), parked⟩ :: installed)
          (path :: done) rest := by
  cases parked with
  | none =>
      obtain ⟨ready, overlooked⟩ := cleared
      have midway := ready.begin
      obtain ⟨moved, reachable⟩ := midway.rename_copy ready.toLoaded renamed
      obtain ⟨spares, moving, loaded, holds, _⟩ := midway.moved ready.toLoaded moved
      have target := resolve_destination midway.listed
      exact ⟨spares.own midway.listed, moving.finish ⟨reachable, holds⟩
        (.more target (Or.inl ⟨rfl, overlooked reachable⟩) moving.installed), loaded⟩
  | some place =>
      obtain ⟨rfl, emptied, loaded⟩ := cleared
      have midway := emptied.toMidway
      obtain ⟨moved, reachable⟩ := midway.rename_copy loaded renamed
      obtain ⟨spares, moving, loaded, holds, stored⟩ := midway.moved loaded moved
      have target := resolve_destination midway.listed
      exact ⟨spares.own midway.listed, moving.finish ⟨reachable, holds⟩
        (.more target (Or.inr ⟨rfl, emptied.parked.imp stored⟩) moving.installed), loaded⟩

/-- Where nothing is found at a place, nothing stood there if a path can lead to it. -/
theorem Ready.overlooked (ready : precinct.Ready tree installed done (path :: rest))
    (free : tree.exists? (precinct.gate.outputRoot.below (SafePath.names path)) = false)
    : precinct.Overlooked path := by
  intro reachable
  have kept := ready.kept path List.mem_cons_self []
  rw [List.append_nil] at kept
  cases stands : precinct.base.get? (precinct.goal path) with
  | none => rfl
  | some entry =>
      rw [stands] at kept
      have listed := ready.begin.listed
      have housed := ready.housed ready.founded listed kept
      have resolved := ready.reaches_target listed housed reachable
      rw [exists?_eq_true.mpr ⟨_, _, resolved, kept⟩] at free
      exact absurd free (by simp)

-----------------------------------------------------------------------------------------
-- One move
-----------------------------------------------------------------------------------------

/-- What has been set aside can be moved back. -/
theorem Emptied.restorable (emptied : precinct.Emptied tree installed done path rest)
    : ∃ after,
        tree.rename (PromotionRoute.parkingPlace precinct.stagingPath installed.length)
          (precinct.gate.outputRoot.below (SafePath.names path))
        = .ok after := by
  have listed := emptied.listed
  obtain ⟨entry, stood⟩ := emptied.parked.stood
  have stands : tree.get? (precinct.parking installed.length) = some entry := by
    simpa [stood] using emptied.parked.stored []
  refine rename_free (emptied.reaches_parking emptied.toGrounded emptied.parked.passable) stands
    (emptied.reaches_target listed emptied.housed emptied.reachable)
    (by simpa using emptied.vacant []) ?_ ?_
  · intro inside
    have inner : precinct.staging <+: precinct.parking installed.length := List.prefix_append _ _
    exact not_staging_goal listed [] (by simpa using inner.trans inside)
  · exact fun inside => not_goal_staging listed [PromotionSite.parkingName _] inside

variable (precinct)

/-- All required files of the draft stand in their places, to which their paths lead. -/
structure Promoted (tree : FileTree) : Prop extends precinct.Standing tree where
  founded : tree.Founded precinct.start precinct.gate.outputRoot.written
  delivered : ∀ path ∈ precinct.gate.destinations, precinct.Delivered tree path

variable {precinct}

/-- When all files have been promoted, all have been switched. -/
theorem Promoted.switched (promoted : precinct.Promoted tree)
    : precinct.Switched tree precinct.gate.destinations [] where
  toStanding := promoted.toStanding
  order := (List.append_nil _).symm
  delivered := promoted.delivered
  first := by simp
  others := by simp

theorem Promoted.guarantee (promoted : precinct.Promoted after)
    (spares : Spares precinct.Owns precinct.Passes tree after)
    : precinct.terms.guarantee tree after :=
  ⟨spares, _, [], promoted.switched⟩

theorem Promoted.sparesGoals (promoted : precinct.Promoted tree)
    (spares : precinct.SparesGoals tree after)
    : precinct.Promoted after := by
  refine ⟨promoted.toStanding.sparesGoals spares, spares.founded promoted.founded,
    fun path listed => ?_⟩
  obtain ⟨reachable, content, mode, found, same⟩ := promoted.delivered path listed
  refine ⟨reachable, content, mode, ?_, same⟩
  simpa using (spares.get?_goal listed []).trans (by simpa using found)

/-- When no file is left, all have been promoted. -/
theorem Ready.promoted (ready : precinct.Ready tree installed done [])
    : precinct.Promoted tree :=
  ⟨ready.toStanding, ready.founded, fun path listed => ready.delivered path (by
    simpa [ready.order] using listed)⟩

/-- The paths of promoted files lead to them. -/
theorem Promoted.readFile (promoted : precinct.Promoted tree)
    (listed : path ∈ precinct.gate.destinations)
    : ∃ content,
        tree.readFile (precinct.gate.outputRoot.below (SafePath.names path)) = .ok content
        ∧ ∀ bytes, precinct.Drafted path bytes → content = bytes := by
  obtain ⟨reachable, content, mode, stands, same⟩ := promoted.delivered path listed
  have housed := promoted.housed promoted.founded listed stands
  obtain ⟨some, founded, place⟩ := promoted.founded_target listed housed
  exact ⟨content, founded.readFile reachable some (place ▸ stands), same⟩

/-- Before the first move, the copies of all required files stand ready. -/
theorem Gathering.ready {files : List StagedFile}
    (gathering : precinct.Gathering tree precinct.gate.rules.requiredFiles)
    (paths : files.map StagedFile.path = precinct.gate.rules.requiredFiles)
    (binds : ∀ file ∈ files, precinct.Binds file)
    : precinct.Ready tree [] [] (files.map StagedFile.path) := by
  have all : precinct.gate.destinations = files.map StagedFile.path := by
    rw [paths, PromotionGate.destinations, List.filter_eq_self, ← paths]
    intro path member
    obtain ⟨file, listed, rfl⟩ := List.mem_map.mp member
    simpa using nonempty (binds file listed).listed
  exact ⟨⟨gathering.toStanding, gathering.toGrounded, by simpa using all, .none, by simp,
    fun path member => gathering.kept path (all ▸ member)⟩, paths ▸ gathering.toLoaded⟩

variable (precinct)

/-- The required files are safe, and those of the draft stand in their places. -/
def Committed (tree : FileTree) : Prop :=
  precinct.Promoted tree
  ∧ ∀ path ∈ precinct.gate.rules.requiredFiles, path ∈ precinct.gate.destinations

variable {precinct}

end Precinct

end Vetting
