import Vetting.Proofs.Files.Tracing
import Vetting.Proofs.Promotion.Undoing

/-! Moving copies into place. Each copy is moved to where the path of its place leads, after what
stood there has been set aside; the other copies stay where they are. A move that fails leaves a tree
in which all moves before it can be undone.
-/

namespace Vetting

open FileTree PromotionGround

namespace PromotionSite

variable {site : PromotionSite} {tree after : FileTree}

-----------------------------------------------------------------------------------------
-- Trees between moves
-----------------------------------------------------------------------------------------

/-- What holds before each move: what is set aside by it and by later ones has a free place, links
have only been set aside, and the copies that are still to be moved are files.
-/
structure Installing (site : PromotionSite) (installed : List InstalledFile)
    (rest : List StagedFile) (tree : FileTree)
    : Prop
    extends site.Undoable installed tree where
  vacant
    : ∀ index, installed.length ≤ index → ∀ way, tree.get? (site.parking index ++ way) = none
  links
    : ∀ name more target,
        tree.get? (site.staging ++ name :: more) = some (.link target)
        → ∃ index, name = parkingName index
  binds : ∀ file ∈ rest, site.Binds file
  copies
    : ∀ file ∈ rest, ∀ entry, tree.get? (site.copyPlace file) = some entry → entry.isFile

/-- Once all copies have been made, they can be moved. -/
theorem Copying.installing (copying : site.Copying tree) {files : List StagedFile}
    (binds : ∀ file ∈ files, site.Binds file)
    (areFiles
      : ∀ file ∈ files, ∃ entry, tree.get? (site.copyPlace file) = some entry ∧ entry.isFile)
    : site.Installing [] files tree := by
  refine ⟨⟨copying.wellFormed, copying.directory, copying.confined, .start copying.grown⟩, ?_, ?_,
    binds, ?_⟩
  · intro index _ way
    cases found : tree.get? (site.parking index ++ way) with
    | none => rfl
    | some entry =>
        rw [parking, List.append_assoc, List.singleton_append] at found
        exact absurd rfl ((copying.copies _ _ _ found).2 index)
  · intro name more target found
    exact absurd found (copying.noLinks _ _)
  · intro file member entry found
    obtain ⟨other, stands, isFile⟩ := areFiles file member
    rw [found] at stands
    exact Option.some.inj stands ▸ isFile

theorem Installing.extended {installed : List InstalledFile} {rest : List StagedFile}
    (installing : site.Installing installed rest tree) (extended : site.Extended tree after)
    : site.Installing installed rest after := by
  have within : ∀ way, after.get? (site.staging ++ way) = tree.get? (site.staging ++ way) :=
    fun way => extended.within _ (mem_of_below_staging (List.prefix_append _ _))
  have parked : ∀ index way,
      after.get? (site.parking index ++ way) = tree.get? (site.parking index ++ way) := by
    intro index way
    rw [parking, List.append_assoc, within]
  refine ⟨⟨extended.wellFormed, ?_, ?_, ?_⟩, ?_, ?_, installing.binds, ?_⟩
  · obtain ⟨mode, directory⟩ := installing.directory
    have same := within []
    rw [List.append_nil] at same
    exact ⟨mode, same.trans directory⟩
  · intro place entry found inside
    rw [extended.within place inside] at found
    exact installing.confined place entry found inside
  · exact installing.restorable.grown extended.wellFormed extended.grows fun i _ => parked i
  · intro index late way
    rw [parked]
    exact installing.vacant index late way
  · intro name more target found
    rw [within] at found
    exact installing.links name more target found
  · intro file member entry found
    rw [copyPlace, within] at found
    exact installing.copies file member entry found

/-- The path of a copy leads to it, as long as links have only been set aside. -/
theorem resolve_copy (like : Resembles [site.name] site.base tree) {mode : Nat}
    (directory : tree.get? site.staging = some (.directory mode))
    (links
      : ∀ name more target,
          tree.get? (site.staging ++ name :: more) = some (.link target)
          → ∃ index, name = parkingName index)
    {file : StagedFile} (binds : site.Binds file) {place : Place}
    (resolved : tree.resolve false file.staged = .ok place)
    : place = site.copyPlace file := by
  refine resolve_within like directory binds.isAbsolute_staged binds.names_staged binds.proper ?_
    resolved
  intro front some isFront _ target found
  cases front with
  | nil => exact absurd rfl some
  | cons name more =>
      obtain ⟨index, same⟩ := links name more target found
      obtain ⟨others, split⟩ := isFront
      exact binds.unparked index (by rw [← split, same]; rfl)

-----------------------------------------------------------------------------------------
-- One move
-----------------------------------------------------------------------------------------

/-- A copy has been moved to a place, after what stood there has been set aside. -/
structure MovedIn (site : PromotionSite) (index : Nat) (aside : Bool) (copy place : Place)
    (before after : FileTree)
    : Prop where
  wellFormed : after.WellFormed
  here : after.here = before.here
  clear : site.name ∉ place
  notAbove : ¬ place <+: site.staging
  atPlace : ∀ way, after.get? (place ++ way) = before.get? (copy ++ way)
  gone : ∀ way, after.get? (copy ++ way) = none
  outside
    : ∀ other,
        site.name ∉ other → ¬ place <+: other → after.get? other = before.get? other
  parked
    : ∀ way,
        before.get? (place ++ way)
        = if aside then after.get? (site.parking index ++ way) else none
  within
    : ∀ other,
        site.name ∈ other
        → ¬ place <+: other
        → ¬ copy <+: other
        → ¬ site.parking index <+: other
        → after.get? other = before.get? other

theorem copy_not_above {names : List Bytes} {index : Nat} {way : Place}
    (nonempty : names ≠ []) (unparked : ∀ index, names.head? ≠ some (parkingName index))
    : ¬ site.staging ++ names <+: site.parking index ++ way := by
  intro inside
  rw [parking, List.append_assoc, List.prefix_append_right_inj] at inside
  cases names with
  | nil => exact nonempty rfl
  | cons name rest =>
      obtain ⟨rfl, _⟩ := List.cons_prefix_cons.mp inside
      exact unparked index rfl

theorem parking_not_above {names : List Bytes} (index : Nat)
    (nonempty : names ≠ []) (unparked : ∀ index, names.head? ≠ some (parkingName index))
    : ¬ site.parking index <+: site.staging ++ names := by
  intro inside
  rw [parking, List.prefix_append_right_inj] at inside
  cases names with
  | nil => exact nonempty rfl
  | cons name rest =>
      obtain ⟨rfl, _⟩ := List.cons_prefix_cons.mp inside
      exact unparked index rfl

/-- A move without anything set aside. -/
theorem movedIn_of_free (wf : tree.WellFormed) {mode : Nat}
    (directory : tree.get? site.staging = some (.directory mode)) {names : List Bytes}
    {index : Nat} {place : Place} (clear : site.name ∉ place) (free : tree.get? place = none)
    (moved : tree.Moved (site.staging ++ names) place after)
    : site.MovedIn index false (site.staging ++ names) place tree after := by
  have below : ∀ way, tree.get? (place ++ way) = none := by
    intro way
    by_cases here : way = []
    · simpa [here] using free
    · exact wf.below_none here (by simp [free])
  refine ⟨moved.wellFormed, moved.here, clear, ?_, moved.get?_goal, moved.get?_source, ?_, ?_, ?_⟩
  · intro above
    obtain ⟨way, split⟩ := above
    rw [← split, below] at directory
    exact absurd directory (by simp)
  · intro other clear notPlace
    refine moved.get?_other notPlace fun inside => clear (inside.subset ?_)
    simp [staging]
  · simpa using below
  · intro other _ notPlace notCopy _
    exact moved.get?_other notPlace notCopy

/-- A move after something has been set aside. -/
theorem movedIn_of_parked {names : List Bytes} {index : Nat} {place : Place} {between : FileTree}
    (nonempty : names ≠ []) (unparked : ∀ index, names.head? ≠ some (parkingName index))
    (clear : site.name ∉ place) (aside : tree.Moved place (site.parking index) between)
    (moved : between.Moved (site.staging ++ names) place after)
    : site.MovedIn index true (site.staging ++ names) place tree after := by
  have notAbove : ¬ place <+: site.staging :=
    fun above => aside.outside (above.trans (List.prefix_append _ _))
  have notPlace : ∀ way, ¬ place <+: site.staging ++ way :=
    fun way above => notAbove (above_staging clear above)
  refine ⟨moved.wellFormed, moved.here.trans aside.here, clear, notAbove, ?_, moved.get?_source,
    ?_, ?_, ?_⟩
  · intro way
    rw [moved.get?_goal, aside.get?_other]
    · intro above
      rcases List.prefix_or_prefix_of_prefix above (List.prefix_append _ way) with h | h
      · exact parking_not_above index nonempty unparked h
      · exact copy_not_above nonempty unparked (h.trans (List.prefix_append _ way))
    · rw [List.append_assoc]
      exact notPlace _
  · intro other clear outside
    rw [moved.get?_other outside, aside.get?_other _ outside]
    · exact fun inside => clear (inside.subset (by simp [parking, staging]))
    · exact fun inside => clear (inside.subset (by simp [staging]))
  · intro way
    rw [if_pos rfl, moved.get?_other, aside.get?_goal]
    · rw [parking, List.append_assoc]
      exact notPlace _
    · exact copy_not_above nonempty unparked
  · intro other _ notPlace notCopy notParking
    rw [moved.get?_other notPlace notCopy, aside.get?_other notParking notPlace]

/-- A file stands where its path leads: the path and its names are none too long, and the path of the
output directory still leads there.
-/
structure Landed (site : PromotionSite) (file : StagedFile) (tree : FileTree) : Prop where
  usable : Usable file.target
  short : ∀ name ∈ SafePath.names file.path, name.length ≤ nameLimit
  course
    : ∃ left,
        tree.Course linkLimit (site.outputRoot.start site.base.here) site.outputRoot.written left
          site.root

/-- A copy that is moved to a free place does not stand in the way to the output directory. -/
theorem landed_of_moved (like : Resembles [site.name] site.base tree) (wf : tree.WellFormed)
    {file : StagedFile} (binds : site.Binds file) {place : Place}
    (resolved : tree.resolve false file.target = .ok place) (free : tree.get? place = none)
    (moved : tree.Moved (site.copyPlace file) place after)
    : site.Landed file after := by
  obtain ⟨names, absolute⟩ := names_target binds.toAdmits binds.target
  obtain ⟨left, course, onward⟩ := walk_from_root like absolute names binds.nonempty resolved
  refine ⟨(resolve_eq_ok.mp resolved).1, (walked_of_walk onward).short, left, ?_⟩
  refine course.retained (like.linksClear linksClear) ?_ (clear_singleton.mpr site.startClear)
    (clear_singleton.mpr site.outputClear)
  intro other entry clear _ found
  rw [moved.get?_other _ _, found]
  · rintro ⟨way, rfl⟩
    by_cases here : way = []
    · simp [here, free] at found
    · rw [wf.below_none here (by simp [free])] at found
      exact absurd found (by simp)
  · intro inside
    exact clear_singleton.mp clear
      (mem_of_below_staging ((List.prefix_append _ _).trans inside))

/-- What a move puts in place is not the directory for copies, nor anything in it. -/
theorem MovedIn.notStaged {index : Nat} {aside : Bool} {copy place : Place}
    (moved : site.MovedIn index aside copy place tree after) (way : Place)
    : ¬ place <+: site.staging ++ way :=
  fun above => moved.notAbove (above_staging moved.clear above)

/-- What other moves have set aside stays where it is. -/
theorem MovedIn.get?_parking {index other : Nat} {aside : Bool} {file : StagedFile} {place : Place}
    (moved : site.MovedIn index aside (site.copyPlace file) place tree after)
    (binds : site.Binds file) (different : other ≠ index) (way : Place)
    : after.get? (site.parking other ++ way) = tree.get? (site.parking other ++ way) := by
  refine moved.within _ ?_ ?_ ?_ ?_
  · exact List.mem_append_left _ (mem_of_below_staging (List.prefix_append _ _))
  · rw [parking, List.append_assoc]
    exact moved.notStaged _
  · exact copy_not_above binds.nonempty binds.unparked
  · exact fun above => different (parking_above above).symm

/-- The directory for copies stays. -/
theorem MovedIn.get?_staging {index : Nat} {aside : Bool} {file : StagedFile} {place : Place}
    (moved : site.MovedIn index aside (site.copyPlace file) place tree after)
    (binds : site.Binds file)
    : after.get? site.staging = tree.get? site.staging := by
  refine moved.within _ (mem_of_below_staging (List.prefix_refl _)) moved.notAbove ?_ ?_
  · intro above
    have shorter := above.length_le
    have names := List.length_pos_of_ne_nil binds.nonempty
    simp only [copyPlace, List.length_append] at shorter
    omega
  · intro above
    have shorter := above.length_le
    simp only [parking, List.length_append, List.length_singleton] at shorter
    omega

/-- In the directory for copies, a move adds nothing but what it sets aside. -/
theorem MovedIn.staged {index : Nat} {aside : Bool} {copy place way : Place} {entry : Entry}
    (moved : site.MovedIn index aside copy place tree after)
    (notParking : ¬ site.parking index <+: site.staging ++ way)
    (stands : after.get? (site.staging ++ way) = some entry)
    : tree.get? (site.staging ++ way) = some entry := by
  by_cases isCopy : copy <+: site.staging ++ way
  · obtain ⟨more, split⟩ := isCopy
    simp [← split, moved.gone] at stands
  · rwa [moved.within _ (mem_of_below_staging (List.prefix_append _ _)) (moved.notStaged _) isCopy
      notParking] at stands

/-- Nothing stands below a copy. -/
theorem Installing.below_copy {installed : List InstalledFile} {rest : List StagedFile}
    (installing : site.Installing installed rest tree) {file : StagedFile} (member : file ∈ rest)
    {entry : Entry} (found : tree.get? (site.copyPlace file) = some entry) {way : Place}
    (further : way ≠ [])
    : tree.get? (site.copyPlace file ++ way) = none := by
  refine installing.wellFormed.below_none further fun mode same => ?_
  have isFile := installing.copies file member entry found
  rw [found] at same
  rw [Option.some.inj same] at isFile
  simp [Entry.isFile] at isFile

/-- The tree after a move is the one before it with a file at a place. -/
theorem Installing.replaced {installed : List InstalledFile} {file : StagedFile}
    {rest : List StagedFile} (installing : site.Installing installed (file :: rest) tree)
    {aside : Bool} {place : Place}
    (moved : site.MovedIn installed.length aside (site.copyPlace file) place tree after)
    {entry : Entry} (found : tree.get? (site.copyPlace file) = some entry)
    : site.Replaced installed.length aside place tree after := by
  have binds := installing.binds file List.mem_cons_self
  refine ⟨moved.here, moved.clear, ?_, ?_, ?_, ?_, moved.parked, ?_, ?_⟩
  · have isFile := installing.copies file List.mem_cons_self entry found
    have here := moved.atPlace []
    rw [List.append_nil, List.append_nil, found] at here
    cases entry with
    | file content mode => exact ⟨content, mode, here⟩
    | _ => simp [Entry.isFile] at isFile
  · intro way further
    rw [moved.atPlace, installing.below_copy List.mem_cons_self found further]
  · intro other entry clear notPlace stands
    rw [moved.outside other clear notPlace, stands]
  · intro other entry clear notPlace free stands
    rw [moved.outside other clear notPlace, free] at stands
    exact absurd stands (by simp)
  · intro way entry stands inside
    have above := installing.confined _ entry stands (List.mem_append_right _ inside)
    rcases List.prefix_or_prefix_of_prefix above (List.prefix_append place way) with h | h
    · exact moved.clear (mem_of_below_staging h)
    · exact moved.notAbove h
  · exact fun i earlier => moved.get?_parking binds (by omega)

/-- After a move, the copies that are still to be moved can be, and this move can be undone too. -/
theorem Installing.movedIn {installed : List InstalledFile} {file : StagedFile}
    {rest : List StagedFile} (installing : site.Installing installed (file :: rest) tree)
    {aside : Bool} {place : Place} (leads : site.base.LeadsTo file.target place)
    (moved : site.MovedIn installed.length aside (site.copyPlace file) place tree after)
    {entry : Entry} (found : tree.get? (site.copyPlace file) = some entry)
    {parked : Option Path}
    (parkedAt
      : parked
        = if aside then some (PromotionRoute.parkingPlace site.stagingPath installed.length)
          else none)
    : site.Installing (⟨file.target, parked⟩ :: installed) rest after := by
  have binds := installing.binds file List.mem_cons_self
  refine ⟨⟨moved.wellFormed, ?_, ?_, ?_⟩, ?_, ?_, ?_, ?_⟩
  · obtain ⟨mode, directory⟩ := installing.directory
    exact ⟨mode, (moved.get?_staging binds).trans directory⟩
  · intro other entry stands inside
    -- What has been moved out is a single file, under a name that is not hidden.
    by_cases isPlace : place <+: other
    · obtain ⟨way, rfl⟩ := isPlace
      rw [moved.atPlace] at stands
      by_cases here : way = []
      · exact absurd (by simpa [here] using inside) moved.clear
      · simp [installing.below_copy List.mem_cons_self found here] at stands
    by_cases isCopy : site.copyPlace file <+: other
    · exact (List.prefix_append _ _).trans isCopy
    by_cases isParking : site.parking installed.length <+: other
    · exact (List.prefix_append _ _).trans isParking
    · rw [moved.within other inside isPlace isCopy isParking] at stands
      exact installing.confined other entry stands inside
  · have replaced := installing.replaced moved found
    refine .replaced installing.restorable binds.toAdmits binds.target leads ?_ ?_
    all_goals
      subst parkedAt
      cases aside
    · exact Or.inl rfl
    · exact Or.inr rfl
    · exact replaced
    · exact replaced
  · intro index late way
    rw [List.length_cons] at late
    rw [moved.get?_parking binds (by omega), installing.vacant index (by omega)]
  · intro name more target stands
    by_cases isParking : site.parking installed.length <+: site.staging ++ name :: more
    · rw [parking, List.prefix_append_right_inj] at isParking
      exact ⟨_, (List.cons_prefix_cons.mp isParking).1.symm⟩
    · exact installing.links name more target (moved.staged isParking stands)
  · exact fun other member => installing.binds other (List.mem_cons_of_mem _ member)
  · intro other member entry stands
    have further := List.mem_cons_of_mem file member
    have otherBinds := installing.binds other further
    have notParking : ¬ site.parking installed.length <+: site.copyPlace other :=
      parking_not_above _ otherBinds.nonempty otherBinds.unparked
    exact installing.copies other further entry (moved.staged notParking stands)

end PromotionSite

-----------------------------------------------------------------------------------------
-- Runs that move files
-----------------------------------------------------------------------------------------

open PromotionStep

variable {conduct : Conduct}

/-- Setting aside moves what stands there, if anything does. -/
theorem park_yields (lawful : conduct.Lawful) {staging target : Path} {index : Nat}
    {tree after : FileTree} {result : Except PromotionFault (Option Path)}
    (run : (PromotionRoute.park staging target index).Yields conduct tree result after)
    : (∃ fault, result = .error fault ∧ after = tree)
      ∨ (result = .ok none ∧ after = tree ∧ tree.exists? target = false)
      ∨ (result = .ok (some (PromotionRoute.parkingPlace staging index))
        ∧ tree.rename target (PromotionRoute.parkingPlace staging index) = .ok after) := by
  unfold PromotionRoute.park at run
  obtain ⟨answer, between, found, run⟩ := yields_lift_bind.mp run
  obtain ⟨rfl, stands⟩ := lawful _ _ _ _ (FileProgram.yields_request.mp found)
  cases answer with
  | error fault =>
      obtain ⟨rfl, rfl⟩ := yields_pure.mp run
      refine Or.inr (Or.inl ⟨rfl, rfl, ?_⟩)
      simpa using stands
  | ok _ =>
      obtain ⟨fault, stopped, moved⟩ | ⟨_, middle, moved, run⟩ := yields_request_bind.mp run
      · exact Or.inl ⟨_, stopped, lawful _ _ _ _ moved⟩
      · obtain ⟨rfl, rfl⟩ := yields_pure.mp run
        exact Or.inr (Or.inr ⟨rfl, lawful _ _ _ _ moved⟩)

namespace PromotionSite

variable {site : PromotionSite} {tree after : FileTree}

/-- Making the directory in which a file belongs. -/
theorem Installing.createParent {installed : List InstalledFile} {file : StagedFile}
    {rest : List StagedFile} (installing : site.Installing installed (file :: rest) tree)
    (lawful : conduct.Lawful) {result : Except PromotionFault Unit}
    (run : (createParent file.target).Yields conduct tree result after)
    : site.Extended tree after := by
  rcases yields_createParent run with ⟨_, rfl⟩ | ⟨parent, answer, above, ended⟩
  · exact .refl installing.wellFormed
  have binds := installing.binds file (by simp)
  rw [binds.target] at above
  obtain ⟨front, absolute⟩ := Path.parent_below binds.nonempty binds.proper above
  exact extended_createDirectories installing.wellFormed installing.restorable.like
    installing.restorable.covers absolute binds.way front (lawful _ _ _ _ ended)

/-- Setting something aside moves it from where the path of its place leads. -/
theorem Installing.parked {installed : List InstalledFile} {file : StagedFile}
    {rest : List StagedFile} (installing : site.Installing installed (file :: rest) tree)
    (renamed
      : tree.rename file.target (PromotionRoute.parkingPlace site.stagingPath installed.length)
        = .ok after)
    : ∃ place,
        site.base.LeadsTo file.target place
        ∧ site.name ∉ place
        ∧ tree.Moved place (site.parking installed.length) after := by
  have binds := installing.binds file (by simp)
  have like := installing.restorable.like
  obtain ⟨mode, directory⟩ := installing.directory
  obtain ⟨place, entry, goal, resolved, _, resolvedGoal, moved⟩ :=
    installing.wellFormed.rename renamed
  obtain ⟨leads, clear⟩ := resolve_target like binds.toAdmits binds.target resolved
  obtain rfl := resolve_parking like directory resolvedGoal
  refine ⟨place, leads, clear, ?_⟩
  rcases moved with ⟨same, _⟩ | ⟨moved, _⟩
  · exact absurd (same ▸ by simp [parking, staging] : site.name ∈ place) clear
  · exact moved

/-- What is set aside is not the directory for copies, nor is it put over it. -/
theorem Installing.directory_parked {installed : List InstalledFile} {rest : List StagedFile}
    (installing : site.Installing installed rest tree) {place : Place}
    (aside : tree.Moved place (site.parking installed.length) after)
    : ∃ mode, after.get? site.staging = some (.directory mode) := by
  obtain ⟨mode, directory⟩ := installing.directory
  refine ⟨mode, ?_⟩
  rw [aside.get?_other _ _, directory]
  · intro above
    have := above.length_le
    simp only [parking, List.length_append, List.length_singleton] at this
    omega
  · exact fun above => aside.outside (above.trans (List.prefix_append _ _))

/-- Moving something back from where it was set aside leaves the tree as it was. -/
theorem Installing.restored {installed : List InstalledFile} {file : StagedFile}
    {rest : List StagedFile} (installing : site.Installing installed (file :: rest) tree)
    {place : Place} {between : FileTree} (leads : site.base.LeadsTo file.target place)
    (clear : site.name ∉ place)
    (aside : tree.Moved place (site.parking installed.length) between)
    (renamed
      : between.rename (PromotionRoute.parkingPlace site.stagingPath installed.length) file.target
        = .ok after)
    : site.Extended tree after := by
  have binds := installing.binds file (by simp)
  have like := like_of_parked installing.restorable.like aside
  have vacant := installing.vacant installed.length (Nat.le_refl _)
  obtain ⟨mode, directory⟩ := installing.directory_parked aside
  obtain ⟨source, entry, goal, resolved, _, resolvedGoal, moved⟩ := aside.wellFormed.rename renamed
  obtain rfl := resolve_parking like directory resolved
  obtain ⟨leads', _⟩ := resolve_target like binds.toAdmits binds.target resolvedGoal
  obtain rfl := leads.unique leads'
  rcases moved with ⟨same, _⟩ | ⟨moved, _⟩
  · exact absurd (same ▸ by simp [parking, staging] : site.name ∈ place) clear
  have same : ∀ other, after.get? other = tree.get? other := by
    intro other
    by_cases inside : place <+: other
    · obtain ⟨way, rfl⟩ := inside
      rw [moved.get?_goal, aside.get?_goal]
    by_cases isParking : site.parking installed.length <+: other
    · obtain ⟨way, rfl⟩ := isParking
      rw [moved.get?_source, vacant]
    · rw [moved.get?_other inside isParking, aside.get?_other isParking inside]
  refine ⟨moved.wellFormed, ⟨moved.here.trans aside.here, ?_, ?_⟩, fun other _ => same other⟩
  · intro other entry _ found
    rw [same, found]
  · intro other entry _ free found
    rw [same, free] at found
    exact absurd found (by simp)

/-- Moving a copy where nothing stands. -/
theorem Installing.moved_free {installed : List InstalledFile} {file : StagedFile}
    {rest : List StagedFile} (installing : site.Installing installed (file :: rest) tree)
    (free : tree.exists? file.target = false)
    (renamed : tree.rename file.staged file.target = .ok after)
    : ∃ place,
        site.base.LeadsTo file.target place
        ∧ site.MovedIn installed.length false (site.copyPlace file) place tree after
        ∧ site.Landed file after
        ∧ ∃ entry, tree.get? (site.copyPlace file) = some entry := by
  have binds := installing.binds file (by simp)
  have like := installing.restorable.like
  obtain ⟨mode, directory⟩ := installing.directory
  obtain ⟨source, entry, place, resolved, found, resolvedGoal, moved⟩ :=
    installing.wellFormed.rename renamed
  obtain rfl := resolve_copy like directory installing.links binds resolved
  obtain ⟨leads, clear⟩ := resolve_target like binds.toAdmits binds.target resolvedGoal
  have nothing : tree.get? place = none := by
    cases stands : tree.get? place with
    | none => rfl
    | some old =>
        rw [exists?_eq_true.mpr ⟨place, old, resolvedGoal, stands⟩] at free
        exact absurd free (by simp)
  rcases moved with ⟨same, _⟩ | ⟨moved, _⟩
  · exact absurd (same ▸ by simp [copyPlace, staging] : site.name ∈ place) clear
  · exact ⟨place, leads, movedIn_of_free installing.wellFormed directory clear nothing moved,
      landed_of_moved like installing.wellFormed binds resolvedGoal nothing moved, entry, found⟩

/-- Moving a copy where something stood that has been set aside. -/
theorem Installing.moved_parked {installed : List InstalledFile} {file : StagedFile}
    {rest : List StagedFile} (installing : site.Installing installed (file :: rest) tree)
    {place : Place} {between : FileTree} (leads : site.base.LeadsTo file.target place)
    (clear : site.name ∉ place)
    (aside : tree.Moved place (site.parking installed.length) between)
    (renamed : between.rename file.staged file.target = .ok after)
    : site.MovedIn installed.length true (site.copyPlace file) place tree after
      ∧ site.Landed file after
      ∧ ∃ entry, tree.get? (site.copyPlace file) = some entry := by
  have binds := installing.binds file (by simp)
  have like := like_of_parked installing.restorable.like aside
  obtain ⟨mode, directory⟩ := installing.directory_parked aside
  have notPlace : ∀ way, ¬ place <+: site.staging ++ way :=
    fun way above => aside.outside ((above_staging clear above).trans (List.prefix_append _ _))
  have links : ∀ name more target,
      between.get? (site.staging ++ name :: more) = some (.link target) →
      ∃ index, name = parkingName index := by
    intro name more target found
    by_cases isParking : site.parking installed.length <+: site.staging ++ name :: more
    · rw [parking, List.prefix_append_right_inj] at isParking
      exact ⟨_, (List.cons_prefix_cons.mp isParking).1.symm⟩
    · rw [aside.get?_other isParking (notPlace _)] at found
      exact installing.links name more target found
  obtain ⟨source, entry, goal, resolved, found, resolvedGoal, moved⟩ :=
    aside.wellFormed.rename renamed
  obtain rfl := resolve_copy like directory links binds resolved
  obtain ⟨leads', _⟩ := resolve_target like binds.toAdmits binds.target resolvedGoal
  obtain rfl := leads.unique leads'
  rcases moved with ⟨same, _⟩ | ⟨moved, _⟩
  · exact absurd (same ▸ by simp [copyPlace, staging] : site.name ∈ place) clear
  have free : between.get? place = none := by simpa using aside.get?_source []
  refine ⟨movedIn_of_parked binds.nonempty binds.unparked clear aside moved,
    landed_of_moved like aside.wellFormed binds resolvedGoal free moved, entry, ?_⟩
  have same : between.get? (site.copyPlace file) = tree.get? (site.copyPlace file) :=
    aside.get?_other (parking_not_above _ binds.nonempty binds.unparked) (notPlace _)
  rw [← same, found]

/-- Moving a copy into place either stops, and leaves a tree in which it can still be moved if what
was set aside could be moved back; or the copy is where it belongs.
-/
theorem Installing.install {installed : List InstalledFile} {file : StagedFile}
    {rest : List StagedFile} (installing : site.Installing installed (file :: rest) tree)
    (lawful : conduct.Lawful) {result : Except PromotionFault InstalledFile}
    (run
      : (PromotionRoute.install site.stagingPath file installed.length).Yields conduct tree result
          after)
    : (∃ fault,
        result = .error fault
        ∧ (conduct.Restores site.stagingPath → site.Installing installed (file :: rest) after))
      ∨ ∃ done between aside place,
          result = .ok done
          ∧ done.target = file.target
          ∧ site.Extended tree between
          ∧ site.base.LeadsTo file.target place
          ∧ site.MovedIn installed.length aside (site.copyPlace file) place between after
          ∧ site.Landed file after
          ∧ site.Installing (done :: installed) rest after := by
  have binds := installing.binds file (by simp)
  unfold PromotionRoute.install at run
  obtain ⟨fault, stopped, above⟩ | ⟨_, first, above, run⟩ := yields_bind.mp run
  · exact Or.inl ⟨fault, stopped, fun _ =>
      installing.extended (installing.createParent lawful above)⟩
  have extended := installing.createParent lawful above
  have ready := installing.extended extended
  obtain ⟨fault, stopped, parking⟩ | ⟨parked, second, parking, run⟩ := yields_bind.mp run
  · obtain ⟨_, _, rfl⟩ | ⟨impossible, _⟩ | ⟨impossible, _⟩ := park_yields lawful parking
    · exact Or.inl ⟨fault, stopped, fun _ => ready⟩
    · exact absurd impossible (by simp)
    · exact absurd impossible (by simp)
  obtain ⟨answer, third, moving, finish⟩ := yields_lift_bind.mp run
  have ends := lawful _ _ _ _ (FileProgram.yields_request.mp moving)
  cases answer with
  | ok _ =>
      obtain ⟨rfl, rfl⟩ := yields_pure.mp finish
      refine Or.inr ?_
      obtain ⟨_, impossible, _⟩ | ⟨none, rfl, free⟩ | ⟨some, renamed⟩ := park_yields lawful parking
      · exact absurd impossible (by simp)
      · obtain ⟨place, leads, moved, landed, entry, found⟩ := ready.moved_free free ends
        obtain rfl := Except.ok.inj none
        exact ⟨_, second, false, place, rfl, rfl, extended, leads, moved, landed,
          ready.movedIn leads moved found rfl⟩
      · obtain ⟨place, leads, clear, aside⟩ := ready.parked renamed
        obtain ⟨moved, landed, entry, found⟩ := ready.moved_parked leads clear aside ends
        obtain rfl := Except.ok.inj some
        exact ⟨_, first, true, place, rfl, rfl, extended, leads, moved, landed,
          ready.movedIn leads moved found rfl⟩
  | error fault =>
      -- The copy has not been moved; what was set aside for it is moved back.
      obtain rfl := ends
      refine Or.inl ?_
      obtain ⟨_, impossible, _⟩ | ⟨none, rfl, _⟩ | ⟨some, renamed⟩ := park_yields lawful parking
      · exact absurd impossible (by simp)
      · obtain rfl := Except.ok.inj none
        obtain ⟨rfl, rfl⟩ := yields_throw.mp finish
        exact ⟨_, rfl, fun _ => ready⟩
      · obtain rfl := Except.ok.inj some
        obtain ⟨place, leads, clear, aside⟩ := ready.parked renamed
        obtain ⟨answer, fourth, undone, finish⟩ := yields_attempt_bind.mp finish
        obtain ⟨rfl, rfl⟩ := yields_throw.mp finish
        refine ⟨_, rfl, fun restores => ?_⟩
        obtain rfl := restores _ _ _ _ _ undone
        exact ready.extended (ready.restored leads clear aside (lawful _ _ _ _ undone))

/-- A copy that is moved into place, unless the move stops. -/
theorem Installing.install_ok {installed : List InstalledFile} {file : StagedFile}
    {rest : List StagedFile} (installing : site.Installing installed (file :: rest) tree)
    (lawful : conduct.Lawful) {done : InstalledFile}
    (run
      : (PromotionRoute.install site.stagingPath file installed.length).Yields conduct tree
          (.ok done) after)
    : ∃ between aside place,
        done.target = file.target
        ∧ site.Extended tree between
        ∧ site.base.LeadsTo file.target place
        ∧ site.MovedIn installed.length aside (site.copyPlace file) place between after
        ∧ site.Landed file after
        ∧ site.Installing (done :: installed) rest after := by
  obtain ⟨_, impossible, _⟩ | ⟨_, between, aside, place, same, target, rest⟩ :=
    installing.install lawful run
  · exact absurd impossible (by simp)
  · obtain rfl := Except.ok.inj same
    exact ⟨between, aside, place, target, rest⟩

/-- When all copies have been moved, the first one has been, and then the others. -/
theorem installAll_cons {staging : Path} {installed : List InstalledFile} {file : StagedFile}
    {rest : List StagedFile}
    (run
      : (PromotionRoute.installAll staging installed (file :: rest)).Yields conduct tree (.ok ())
          after)
    : ∃ done between,
        (PromotionRoute.install staging file installed.length).Yields conduct tree (.ok done) between
        ∧ (PromotionRoute.installAll staging (done :: installed) rest).Yields conduct between
            (.ok ()) after := by
  unfold PromotionRoute.installAll at run
  obtain ⟨_, impossible, _⟩ | ⟨done, between, caught, run⟩ := yields_bind.mp run
  · exact absurd impossible (by simp)
  obtain ⟨_, same, moving⟩ | ⟨_, _, _, undone⟩ := yields_tryCatch.mp caught
  · obtain rfl := Except.ok.inj same
    exact ⟨_, between, moving, run⟩
  · obtain ⟨_, impossible, _⟩ | ⟨_, _, _, thrown⟩ := yields_bind.mp undone
    · exact absurd impossible (by simp)
    · exact absurd (yields_throw.mp thrown).1 (by simp)

/-- When all copies have been moved, the last one stands where its path leads, by induction on them.
-/
theorem Installing.installAll {installed : List InstalledFile} {files : List StagedFile}
    (installing : site.Installing installed files tree) (lawful : conduct.Lawful)
    (run
      : (PromotionRoute.installAll site.stagingPath installed files).Yields conduct tree (.ok ())
          after)
    : ∃ all,
        site.Installing all [] after
        ∧ all.map InstalledFile.target
          = (files.map StagedFile.target).reverse ++ installed.map InstalledFile.target
        ∧ (files ≠ [] → ∃ file, site.Landed file after) := by
  induction files generalizing installed tree with
  | nil =>
      obtain ⟨_, rfl⟩ := yields_pure.mp run
      exact ⟨installed, installing, by simp, absurd rfl⟩
  | cons file rest ih =>
      obtain ⟨done, between, moving, run⟩ := installAll_cons run
      obtain ⟨_, _, _, target, _, _, _, landed, onward⟩ := installing.install_ok lawful moving
      obtain ⟨all, finished, targets, last⟩ := ih onward run
      refine ⟨all, finished, by simp [targets, target], fun _ => ?_⟩
      by_cases more : rest = []
      · subst more
        obtain ⟨_, rfl⟩ := yields_pure.mp run
        exact ⟨file, landed⟩
      · exact last more

/-- Moving all copies into place, or none of them: when it stops, all moves have been undone. By
induction on the copies.
-/
theorem Installing.installAll_error {installed : List InstalledFile} {files : List StagedFile}
    (installing : site.Installing installed files tree) (lawful : conduct.Lawful)
    (removes : conduct.RemovesFiles) (restores : conduct.Restores site.stagingPath)
    {fault : PromotionFault}
    (run
      : (PromotionRoute.installAll site.stagingPath installed files).Yields conduct tree
          (.error fault) after)
    : site.Undoable [] after := by
  induction files generalizing installed tree with
  | nil => exact absurd (yields_pure.mp run).1 (by simp)
  | cons file rest ih =>
      unfold PromotionRoute.installAll at run
      obtain ⟨_, _, caught⟩ | ⟨done, between, caught, run⟩ := yields_bind.mp run
      · obtain ⟨_, impossible, _⟩ | ⟨stopped, between, moved, undone⟩ := yields_tryCatch.mp caught
        · exact absurd impossible (by simp)
        obtain ⟨_, _, kept⟩ | ⟨_, _, _, _, impossible, _, _⟩ := installing.install lawful moved
        · have undoable := (kept restores).toUndoable
          obtain ⟨_, _, rolled⟩ | ⟨_, last, rolled, thrown⟩ := yields_bind.mp undone
          · exact (undoable.rollback lawful removes restores rolled).2
          · obtain ⟨_, rfl⟩ := yields_throw.mp thrown
            exact (undoable.rollback lawful removes restores rolled).2
        · exact absurd impossible (by simp)
      · obtain ⟨_, same, moved⟩ | ⟨stopped, middle, moved, undone⟩ := yields_tryCatch.mp caught
        · obtain ⟨_, impossible, _⟩ | ⟨_, _, _, _, same', _, _, _, _, _, onward⟩ :=
            installing.install lawful moved
          · exact absurd impossible (by simp)
          obtain rfl := Except.ok.inj same
          obtain rfl := Except.ok.inj same'
          exact ih onward run
        · obtain ⟨_, impossible, _⟩ | ⟨_, _, rolled, thrown⟩ := yields_bind.mp undone
          · exact absurd impossible (by simp)
          · exact absurd (yields_throw.mp thrown).1 (by simp)

end PromotionSite

end Vetting
