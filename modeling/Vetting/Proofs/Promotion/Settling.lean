import Vetting.Proofs.Promotion.Commit

/-! Moving all copies into place. No file belongs at or below the place of another one, since all
copies stand beside each other; so each of them comes to stand where it belongs, and stays there
while the others are moved.
-/

namespace Vetting

open FileTree PromotionGround PromotionStep

namespace PromotionSite

variable {site : PromotionSite} {tree after : FileTree}

-----------------------------------------------------------------------------------------
-- Files beside each other
-----------------------------------------------------------------------------------------

/-- The names of one file do not lead to the other one or below it. -/
def Beside (one two : StagedFile) : Prop :=
  ¬ SafePath.names one.path <+: SafePath.names two.path
  ∧ ¬ SafePath.names two.path <+: SafePath.names one.path

/-- At a place stands a file whose bytes have a digest. -/
def HoldsAt (tree : FileTree) (place : Place) (digest : String) : Prop :=
  ∃ content mode,
    tree.get? place = some (.file content mode) ∧ digest = Sha256.hexDigest content

/-- Where a file belongs. -/
def filePlace (site : PromotionSite) (file : StagedFile) : Place :=
  site.root ++ SafePath.names file.path

theorem HoldsAt.same {place other : Place} {digest : String} (holds : HoldsAt tree place digest)
    (same : after.get? other = tree.get? place)
    : HoldsAt after other digest := by
  obtain ⟨content, mode, found, eq⟩ := holds
  exact ⟨content, mode, same.trans found, eq⟩

/-- Where one file stands, no other one stands below it. -/
theorem not_prefix_of_holds (wf : tree.WellFormed) {one two : StagedFile} {digest other : String}
    (first : HoldsAt tree (site.copyPlace one) digest)
    (second : HoldsAt tree (site.copyPlace two) other)
    (distinct : SafePath.names one.path ≠ SafePath.names two.path)
    : ¬ SafePath.names one.path <+: SafePath.names two.path := by
  intro ⟨way, split⟩
  obtain ⟨content, mode, found, _⟩ := first
  obtain ⟨content', mode', found', _⟩ := second
  have further : way ≠ [] := by
    rintro rfl
    exact distinct (by simpa using split)
  have below : tree.get? (site.copyPlace one ++ way) = none :=
    wf.below_none further (by simp [found])
  rw [copyPlace, List.append_assoc, split] at below
  rw [copyPlace, below] at found'
  exact absurd found' (by simp)

/-- Copies with different names, all of them files, stand beside each other. -/
theorem beside_of_holds (wf : tree.WellFormed) {files : List StagedFile}
    (holds : ∀ file ∈ files, HoldsAt tree (site.copyPlace file) file.digest)
    (distinct : (files.map fun file => SafePath.names file.path).Nodup)
    : files.Pairwise Beside := by
  refine (List.pairwise_map.mp distinct).imp_of_mem fun one two other => ?_
  exact ⟨not_prefix_of_holds wf (holds _ one) (holds _ two) other,
    not_prefix_of_holds wf (holds _ two) (holds _ one) (Ne.symm other)⟩

-----------------------------------------------------------------------------------------
-- Between two moves
-----------------------------------------------------------------------------------------

/-- What holds before each move: the files that have been moved stand where they belong, and the
others where they were copied. Elsewhere nothing is new but directories.
-/
structure Settling (site : PromotionSite) (installed : List InstalledFile)
    (done rest : List StagedFile) (tree : FileTree)
    : Prop
    extends site.Installing installed rest tree where
  beside : (done ++ rest).Pairwise Beside
  bound : ∀ file ∈ done, site.Binds file
  settled : ∀ file ∈ done, HoldsAt tree (site.filePlace file) file.digest
  pending : ∀ file ∈ rest, HoldsAt tree (site.copyPlace file) file.digest
  landed : ∀ file ∈ done, site.Landed file tree
  others
    : ∀ place entry,
        site.name ∉ place
        → tree.get? place = some entry
        → site.base.get? place = some entry
          ∨ entry.isDirectory ∧ site.Made place
          ∨ ∃ file ∈ done, place = site.filePlace file

/-- Before the first move, the copies are those that have been made. -/
theorem Copying.settling (copying : site.Copying tree) {files : List StagedFile}
    (binds : ∀ file ∈ files, site.Binds file)
    (holds : ∀ file ∈ files, HoldsAt tree (site.copyPlace file) file.digest)
    (distinct : (files.map fun file => SafePath.names file.path).Nodup)
    : site.Settling [] [] files tree := by
  have areFiles
      : ∀ file ∈ files, ∃ entry, tree.get? (site.copyPlace file) = some entry ∧ entry.isFile := by
    intro file member
    obtain ⟨content, mode, found, _⟩ := holds file member
    exact ⟨_, found, rfl⟩
  refine ⟨copying.installing binds areFiles, beside_of_holds copying.wellFormed holds distinct,
    by simp, by simp, holds, by simp, ?_⟩
  intro place entry clear found
  cases stood : site.base.get? place with
  | none =>
      exact Or.inr (Or.inl (copying.grown.adds place entry (clear_singleton.mpr clear) stood found))
  | some old =>
      rw [copying.grown.keeps place old (clear_singleton.mpr clear) stood] at found
      exact Or.inl found

/-- Files with names beside each other belong beside each other. -/
theorem Beside.apart {one two : StagedFile} (beside : Beside one two) (place : Place)
    : ¬ place ++ SafePath.names one.path <+: place ++ SafePath.names two.path := by
  rw [List.prefix_append_right_inj]
  exact beside.1

/-- A move leaves the copies that are still to be moved as they are. -/
theorem MovedIn.pending {index : Nat} {aside : Bool} {file other : StagedFile} {place : Place}
    {between : FileTree}
    (moved : site.MovedIn index aside (site.copyPlace file) place between after)
    (extended : site.Extended tree between) (beside : Beside file other) (binds : site.Binds other)
    (held : HoldsAt tree (site.copyPlace other) other.digest)
    : HoldsAt after (site.copyPlace other) other.digest := by
  have hidden : site.name ∈ site.copyPlace other := mem_of_below_staging (List.prefix_append _ _)
  refine held.same ?_
  rw [moved.within _ hidden _ (beside.apart _) _, extended.within _ hidden]
  · exact moved.notStaged _
  · exact parking_not_above _ binds.nonempty binds.unparked

/-- A move puts the copy where its path leads. -/
theorem MovedIn.landed {index : Nat} {aside : Bool} {file : StagedFile} {place : Place}
    {between : FileTree}
    (moved : site.MovedIn index aside (site.copyPlace file) place between after)
    (extended : site.Extended tree between)
    (held : HoldsAt tree (site.copyPlace file) file.digest)
    : HoldsAt after place file.digest := by
  have hidden : site.name ∈ site.copyPlace file := mem_of_below_staging (List.prefix_append _ _)
  have same := moved.atPlace []
  rw [List.append_nil, List.append_nil, extended.within _ hidden] at same
  exact held.same same

theorem filePlace_clear {file : StagedFile} (binds : site.Binds file)
    : site.name ∉ site.filePlace file := by
  rw [filePlace, List.mem_append, not_or]
  exact ⟨rootClear, binds.clear⟩

/-- A move leaves the files that stand where they belong as they are. -/
theorem MovedIn.settled {index : Nat} {aside : Bool} {file other : StagedFile}
    {between : FileTree}
    (moved
      : site.MovedIn index aside (site.copyPlace file) (site.filePlace file) between after)
    (extended : site.Extended tree between) (beside : Beside file other) (binds : site.Binds other)
    (held : HoldsAt tree (site.filePlace other) other.digest)
    : HoldsAt after (site.filePlace other) other.digest := by
  have clear := filePlace_clear binds
  refine held.same ?_
  obtain ⟨content, mode, found, _⟩ := held
  rw [moved.outside _ clear (beside.apart _),
    extended.grows.keeps _ _ (clear_singleton.mpr clear) found, found]

/-- What stands outside the staging directory after a move is the file that was moved, or it stood
there before the move, or it is a new directory.
-/
theorem MovedIn.found {index : Nat} {aside : Bool} {file : StagedFile} {between : FileTree}
    (moved
      : site.MovedIn index aside (site.copyPlace file) (site.filePlace file) between after)
    (extended : site.Extended tree between) (wf : tree.WellFormed)
    (held : HoldsAt tree (site.copyPlace file) file.digest) {place : Place} {entry : Entry}
    (clear : site.name ∉ place) (found : after.get? place = some entry)
    : place = site.filePlace file
      ∨ tree.get? place = some entry
      ∨ entry.isDirectory ∧ site.Made place := by
  by_cases inside : site.filePlace file <+: place
  · obtain ⟨way, rfl⟩ := inside
    have hidden : site.name ∈ site.copyPlace file ++ way :=
      mem_of_below_staging ((List.prefix_append _ _).trans (List.prefix_append _ _))
    rw [moved.atPlace, extended.within _ hidden] at found
    obtain ⟨content, mode, copy, _⟩ := held
    -- Nothing stands below the file, as nothing stood below its copy.
    by_cases here : way = []
    · exact Or.inl (by simp [here])
    · rw [wf.below_none here (by simp [copy])] at found
      exact absurd found (by simp)
  · rw [moved.outside place clear inside] at found
    cases stood : tree.get? place with
    | none =>
        exact Or.inr
          (Or.inr (extended.grows.adds place entry (clear_singleton.mpr clear) stood found))
    | some old =>
        rw [extended.grows.keeps place old (clear_singleton.mpr clear) stood] at found
        exact Or.inr (Or.inl found)

/-- One more file comes to stand where it belongs; all others stay. -/
theorem Settling.movedIn {installed : List InstalledFile} {done rest : List StagedFile}
    {file : StagedFile} {next : InstalledFile}
    (settling : site.Settling installed done (file :: rest) tree) {between : FileTree}
    (extended : site.Extended tree between) {aside : Bool}
    (moved
      : site.MovedIn installed.length aside (site.copyPlace file) (site.filePlace file) between
          after)
    (landed : site.Landed file after) (onward : site.Installing (next :: installed) rest after)
    : site.Settling (next :: installed) (file :: done) rest after := by
  have binds := settling.binds file List.mem_cons_self
  have copied := settling.pending file List.mem_cons_self
  obtain ⟨_, apart, across⟩ := List.pairwise_append.mp settling.beside
  obtain ⟨fromFile, _⟩ := List.pairwise_cons.mp apart
  refine ⟨onward, ?_, ?_, ?_, ?_, ?_, ?_⟩
  · have middle : (done ++ file :: rest).Perm (file :: done ++ rest) := List.perm_middle
    exact settling.beside.perm middle And.symm
  · exact List.forall_mem_cons.mpr ⟨binds, settling.bound⟩
  · refine List.forall_mem_cons.mpr ⟨moved.landed extended copied, fun other member => ?_⟩
    exact moved.settled extended (across other member file List.mem_cons_self).symm
      (settling.bound other member) (settling.settled other member)
  · intro other member
    have further := List.mem_cons_of_mem file member
    exact moved.pending extended (fromFile other member) (settling.binds other further)
      (settling.pending other further)
  · refine List.forall_mem_cons.mpr ⟨landed, fun other member => ?_⟩
    obtain ⟨usable, short, _⟩ := settling.landed other member
    exact ⟨usable, short, landed.course⟩
  · intro place entry clear found
    rcases moved.found extended settling.wellFormed copied clear found with here | stood | made
    · exact Or.inr (Or.inr ⟨file, List.mem_cons_self, here⟩)
    · rcases settling.others place entry clear stood with base | made | ⟨other, member, same⟩
      · exact Or.inl base
      · exact Or.inr (Or.inl made)
      · exact Or.inr (Or.inr ⟨other, List.mem_cons_of_mem _ member, same⟩)
    · exact Or.inr (Or.inl made)

-----------------------------------------------------------------------------------------
-- Runs
-----------------------------------------------------------------------------------------

variable {conduct : Conduct}

/-- Moving all copies into place, where no link turns off on the way, by induction on them. -/
theorem Settling.installAll {installed : List InstalledFile} {done files : List StagedFile}
    (settling : site.Settling installed done files tree) (lawful : conduct.Lawful)
    (straight : ∀ file ∈ files, site.base.LeadsTo file.target (site.filePlace file))
    (run
      : (PromotionRoute.installAll site.stagingPath installed files).Yields conduct tree (.ok ())
          after)
    : ∃ installed, site.Settling installed (files.reverse ++ done) [] after := by
  induction files generalizing installed done tree with
  | nil =>
      obtain ⟨_, rfl⟩ := yields_pure.mp run
      exact ⟨installed, settling⟩
  | cons file rest ih =>
      obtain ⟨here, onwards⟩ := List.forall_mem_cons.mp straight
      obtain ⟨next, between, moving, run⟩ := installAll_cons run
      obtain ⟨first, aside, place, _, extended, leads, moved, landed, onward⟩ :=
        settling.toInstalling.install_ok lawful moving
      obtain rfl := leads.unique here
      obtain ⟨all, settled⟩ := ih (settling.movedIn extended moved landed onward) onwards run
      exact ⟨all, by simpa using settled⟩

end PromotionSite

end Vetting
