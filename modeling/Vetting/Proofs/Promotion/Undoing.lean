import Vetting.Proofs.Promotion.Staging

/-! Moves that can be undone. Before each move stood a tree that differs from the one after it by a
file and by what was set aside, and from there on the moves before it can be undone, too. Undoing
all of them leaves nothing new but directories.
-/

namespace Vetting

open FileTree PromotionGround PromotionStep

namespace PromotionSite

variable {site : PromotionSite} {tree after : FileTree}

-----------------------------------------------------------------------------------------
-- Moves that can be undone
-----------------------------------------------------------------------------------------

/-- One tree is another one with a file at a place. What stood there has been set aside, or else
nothing stood there; what was set aside earlier stays there.
-/
structure Replaced (site : PromotionSite) (index : Nat) (aside : Bool) (place : Place)
    (before tree : FileTree)
    : Prop where
  here : tree.here = before.here
  clear : site.name ∉ place
  file : ∃ content mode, tree.get? place = some (.file content mode)
  below : ∀ way, way ≠ [] → tree.get? (place ++ way) = none
  keeps
    : ∀ other entry,
        site.name ∉ other
        → ¬ place <+: other
        → before.get? other = some entry
        → tree.get? other = some entry
  adds
    : ∀ other entry,
        site.name ∉ other
        → ¬ place <+: other
        → before.get? other = none
        → tree.get? other = some entry
        → entry.isDirectory ∧ site.Made other
  parked
    : ∀ way,
        before.get? (place ++ way)
        = if aside then tree.get? (site.parking index ++ way) else none
  clean : ∀ way entry, before.get? (place ++ way) = some entry → site.name ∉ way
  earlier
    : ∀ i < index,
        ∀ way, tree.get? (site.parking i ++ way) = before.get? (site.parking i ++ way)

/-- The base can be had back from a tree by undoing moves, the last one of which is given first. -/
inductive Restorable (site : PromotionSite) : List InstalledFile → FileTree → Prop
  | start {tree : FileTree} (grown : site.Grown site.base tree) : Restorable site [] tree
  | replaced {file installed names place before tree}
    (rest : Restorable site installed before)
    (admits : site.Admits names)
    (target : file.target = site.outputRoot.below names)
    (leads : site.base.LeadsTo file.target place)
    (parked
      : file.parked = none
        ∨ file.parked = some (PromotionRoute.parkingPlace site.stagingPath installed.length))
    (replaced : site.Replaced installed.length file.parked.isSome place before tree)
    : Restorable site (file :: installed) tree

/-- The links and directories of a tree that can be restored are not others than those of the base,
by induction on the moves.
-/
theorem Restorable.like {installed : List InstalledFile} (restorable : site.Restorable installed tree)
    : Resembles [site.name] site.base tree := by
  induction restorable with
  | start grown => exact grown.resembles
  | @replaced file installed names place before tree _ _ _ _ _ replaced ih =>
      have outside : ∀ {other entry}, tree.get? other = some entry → entry.isFile = false →
          ¬ place <+: other := by
        intro other entry found noFile inside
        obtain ⟨way, rfl⟩ := inside
        by_cases here : way = []
        · obtain ⟨content, mode, file⟩ := replaced.file
          rw [here, List.append_nil, file] at found
          obtain rfl := Option.some.inj found
          simp [Entry.isFile] at noFile
        · simp [replaced.below way here] at found
      refine ⟨replaced.here.trans ih.here, ?_, ?_⟩
      · intro other target clear found
        have notPlace := outside found rfl
        cases old : before.get? other with
        | none =>
            have := (replaced.adds _ _ (clear_singleton.mp clear) notPlace old found).1
            simp [Entry.isDirectory] at this
        | some entry =>
            have same := replaced.keeps _ _ (clear_singleton.mp clear) notPlace old
            rw [found] at same
            exact ih.links _ _ clear (Option.some.inj same ▸ old)
      · intro other mode clear found target
        have notPlace := outside found rfl
        cases old : before.get? other with
        | none =>
            have := (replaced.adds _ _ (clear_singleton.mp clear) notPlace old found).2.1
            simp [this]
        | some entry =>
            have same := replaced.keeps _ _ (clear_singleton.mp clear) notPlace old
            rw [found] at same
            exact ih.directories _ mode clear (Option.some.inj same ▸ old) target

/-- What stood in the base still stands or is covered by a file, by induction on the moves. -/
theorem Restorable.covers {installed : List InstalledFile}
    (restorable : site.Restorable installed tree)
    : Covers [site.name] site.base tree := by
  induction restorable with
  | start grown => exact fun place entry clear found => Or.inl (grown.keeps place entry clear found)
  | @replaced file installed names place before tree _ _ _ _ _ replaced ih =>
      intro other entry clear found
      by_cases inside : place <+: other
      · obtain ⟨content, mode, file⟩ := replaced.file
        exact Or.inr ⟨place, content, mode, inside, file⟩
      have hidden := clear_singleton.mp clear
      rcases ih other entry clear found with kept | ⟨above, content, mode, isAbove, file⟩
      · exact Or.inl (replaced.keeps other entry hidden inside kept)
      · refine Or.inr ⟨above, content, mode, isAbove, replaced.keeps above _ ?_ ?_ file⟩
        · exact fun member => hidden (isAbove.subset member)
        · exact fun first => inside (first.trans isAbove)

/-- A tree that has grown can still be restored, as long as what was set aside is still there. -/
theorem Restorable.grown {installed : List InstalledFile}
    (restorable : site.Restorable installed tree) (wf : after.WellFormed)
    (grown : site.Grown tree after)
    (parked
      : ∀ i < installed.length,
          ∀ way, after.get? (site.parking i ++ way) = tree.get? (site.parking i ++ way))
    : site.Restorable installed after := by
  cases restorable with
  | start first => exact .start (first.trans grown)
  | @replaced file installed names place before tree rest admits target leads aside replaced =>
      obtain ⟨content, mode, file⟩ := replaced.file
      have file := grown.keeps _ _ (clear_singleton.mpr replaced.clear) file
      refine .replaced rest admits target leads aside
        { replaced with
          here := grown.here.trans replaced.here
          file := ⟨content, mode, file⟩
          below := ?_
          keeps := ?_
          adds := ?_
          parked := ?_
          earlier := ?_ }
      · intro way further
        exact wf.below_none further (by simp [file])
      · intro other entry clear notPlace found
        exact grown.keeps _ _ (clear_singleton.mpr clear)
          (replaced.keeps other entry clear notPlace found)
      · intro other entry clear notPlace free found
        cases old : tree.get? other with
        | none => exact grown.adds _ _ (clear_singleton.mpr clear) old found
        | some first =>
            have same := grown.keeps _ _ (clear_singleton.mpr clear) old
            rw [found] at same
            exact replaced.adds _ _ clear notPlace free (Option.some.inj same ▸ old)
      · intro way
        rw [parked _ (by simp), replaced.parked way]
      · intro i earlier way
        rw [parked i (by simp; omega), replaced.earlier i earlier way]

/-- What holds from the first move on: the moves made can be undone, and the fresh name is used for
nothing but the directory for copies.
-/
structure Undoable (site : PromotionSite) (installed : List InstalledFile) (tree : FileTree) : Prop
    where
  wellFormed : tree.WellFormed
  directory : ∃ mode, tree.get? site.staging = some (.directory mode)
  confined
    : ∀ place entry, tree.get? place = some entry → site.name ∈ place → site.staging <+: place
  restorable : site.Restorable installed tree

-----------------------------------------------------------------------------------------
-- Where the paths of a move lead
-----------------------------------------------------------------------------------------

theorem names_target {path : Path} {names : List Bytes} (admits : site.Admits names)
    (target : path = site.outputRoot.below names)
    : path.names = site.outputRoot.written ++ names
      ∧ path.isAbsolute = site.outputRoot.isAbsolute := by
  rw [target]
  exact ⟨Path.names_below _ admits.nonempty admits.proper, Path.isAbsolute_below _ admits.proper⟩

/-- The path at which a file belongs leads where it leads in the base. -/
theorem resolve_target (like : Resembles [site.name] site.base tree) {path : Path}
    {names : List Bytes} (admits : site.Admits names) (target : path = site.outputRoot.below names)
    {place : Place} (resolved : tree.resolve false path = .ok place)
    : site.base.LeadsTo path place ∧ site.name ∉ place := by
  obtain ⟨names_eq, absolute⟩ := names_target admits target
  refine resolve_outside like absolute ?_ ?_ resolved
  · rw [names_eq]
    simpa using ⟨site.outputClear, admits.clear⟩
  · rw [names_eq]
    simp [admits.nonempty]

/-- The path at which something is set aside leads there. -/
theorem resolve_parking (like : Resembles [site.name] site.base tree) {mode : Nat}
    (directory : tree.get? site.staging = some (.directory mode)) {index : Nat} {place : Place}
    (resolved
      : tree.resolve false (PromotionRoute.parkingPlace site.stagingPath index) = .ok place)
    : place = site.parking index := by
  have proper := isName_parkingName index
  have absolute := (Path.isAbsolute_join site.stagingPath proper).trans isAbsolute_stagingPath
  have names : (site.stagingPath.join (parkingName index)).names
      = site.outputRoot.written ++ site.name :: [parkingName index] := by
    rw [Path.names_join proper, written_stagingPath]
    simp
  refine resolve_within like directory absolute names (by simpa using proper) ?_ resolved
  intro front some isFront last
  cases front with
  | nil => exact absurd rfl some
  | cons name more =>
      obtain ⟨rfl, inner⟩ := List.cons_prefix_cons.mp isFront
      obtain rfl := List.prefix_nil.mp inner
      exact absurd (last rfl) (by simp)

/-- What hides nothing lies above something in the directory for copies only when it lies above that
directory.
-/
theorem above_staging {place way : Place} (clear : site.name ∉ place)
    (above : place <+: site.staging ++ way)
    : place <+: site.staging := by
  rcases List.prefix_or_prefix_of_prefix above (List.prefix_append site.staging way) with h | h
  · exact h
  · exact absurd (mem_of_below_staging h) clear

theorem parking_above {i j : Nat} {way : Place}
    (inside : site.parking i <+: site.parking j ++ way)
    : i = j := by
  rw [parking, parking, List.append_assoc, List.prefix_append_right_inj] at inside
  exact parkingName_injective (List.cons_prefix_cons.mp inside).1

/-- The tree after something has been set aside resembles the base as the tree before does. -/
theorem like_of_parked (like : Resembles [site.name] site.base tree) {place : Place} {index : Nat}
    (moved : tree.Moved place (site.parking index) after)
    : Resembles [site.name] site.base after := by
  refine like.shrunk moved.here ?_
  intro other entry clear found
  have notParking : ¬ site.parking index <+: other :=
    fun inside => clear_singleton.mp clear (inside.subset (by simp [parking, staging]))
  rw [moved.get?_eq, if_neg notParking] at found
  split at found
  · exact absurd found (by simp)
  · exact found

/-- The directory for copies does not lie below a place at which there is a file. -/
theorem Replaced.notAbove {index : Nat} {aside : Bool} {place : Place} {before : FileTree}
    (replaced : site.Replaced index aside place before tree) {mode : Nat}
    (directory : tree.get? site.staging = some (.directory mode))
    : ¬ place <+: site.staging := by
  intro above
  obtain ⟨way, split⟩ := above
  by_cases here : way = []
  · rw [here, List.append_nil] at split
    exact replaced.clear (split ▸ by simp [staging])
  · rw [← split, replaced.below way here] at directory
    exact absurd directory (by simp)

-----------------------------------------------------------------------------------------
-- Undoing moves
-----------------------------------------------------------------------------------------

/-- When a place is again as it was before the last move, the moves before it can be undone. -/
theorem Undoable.undone {file : InstalledFile} {installed : List InstalledFile} {place : Place}
    {before : FileTree} (undoable : site.Undoable (file :: installed) tree)
    (rest : site.Restorable installed before)
    (replaced : site.Replaced installed.length file.parked.isSome place before tree)
    (wf : after.WellFormed) (here : after.here = tree.here)
    (again : ∀ way, after.get? (place ++ way) = before.get? (place ++ way))
    (others
      : ∀ other,
          ¬ place <+: other
          → ¬ site.parking installed.length <+: other
          → after.get? other = tree.get? other)
    : site.Undoable installed after := by
  obtain ⟨mode, directory⟩ := undoable.directory
  have notAbove := replaced.notAbove directory
  have notPlace : ∀ way, ¬ place <+: site.staging ++ way :=
    fun way above => notAbove (above_staging replaced.clear above)
  have notParking : ∀ other, site.name ∉ other → ¬ site.parking installed.length <+: other :=
    fun other clear inside => clear (inside.subset (by simp [parking, staging]))
  refine ⟨wf, ?_, ?_, rest.grown wf ⟨here.trans replaced.here, ?_, ?_⟩ ?_⟩
  · refine ⟨mode, (others _ notAbove ?_).trans directory⟩
    intro above
    have := above.length_le
    simp only [parking, List.length_append, List.length_singleton] at this
    omega
  · intro other entry found inside
    by_cases isPlace : place <+: other
    · obtain ⟨way, rfl⟩ := isPlace
      rw [again] at found
      rcases List.mem_append.mp inside with h | h
      · exact absurd h replaced.clear
      · exact absurd h (replaced.clean way entry found)
    by_cases isParking : site.parking installed.length <+: other
    · exact (List.prefix_append _ _).trans isParking
    · rw [others other isPlace isParking] at found
      exact undoable.confined other entry found inside
  · intro other entry clear found
    by_cases isPlace : place <+: other
    · obtain ⟨way, rfl⟩ := isPlace
      rw [again, found]
    · have hidden := clear_singleton.mp clear
      rw [others other isPlace (notParking other hidden)]
      exact replaced.keeps other entry hidden isPlace found
  · intro other entry clear free found
    by_cases isPlace : place <+: other
    · obtain ⟨way, rfl⟩ := isPlace
      rw [again, free] at found
      exact absurd found (by simp)
    · have hidden := clear_singleton.mp clear
      rw [others other isPlace (notParking other hidden)] at found
      exact replaced.adds other entry hidden isPlace free found
  · intro i earlier way
    rw [others, replaced.earlier i earlier]
    · rw [parking, List.append_assoc]
      exact notPlace _
    · intro above
      have := parking_above above
      omega

/-- Undoing the last move: the file is removed, and what was set aside is moved back. -/
theorem Undoable.undo {file : InstalledFile} {installed : List InstalledFile} {between : FileTree}
    (undoable : site.Undoable (file :: installed) tree)
    (removed : tree.removeFile file.target = .ok between)
    (restored
      : ∀ place, file.parked = some place → between.rename place file.target = .ok after)
    (unparked : file.parked = none → after = between)
    : site.Undoable installed after := by
  obtain ⟨_, directory⟩ := undoable.directory
  have like := undoable.restorable.like
  cases undoable.restorable with
  | @replaced _ _ names place before _ rest admits target leads parked replaced =>
      obtain ⟨place', _, resolved, _, _, gone⟩ := undoable.wellFormed.removeFile removed
      obtain ⟨leads', clear⟩ := resolve_target like admits target resolved
      obtain rfl := leads.unique leads'
      have belowRoot : place ≠ [] := by
        rintro rfl
        obtain ⟨content, mode, file⟩ := replaced.file
        simp at file
      have vanished := gone.get?_below belowRoot
      rcases parked with none | some
      · obtain rfl := unparked none
        refine undoable.undone rest replaced gone.wellFormed gone.here ?_ ?_
        · intro way
          rw [vanished, replaced.parked way, none]
          rfl
        · exact fun other outside _ => gone.get?_other outside
      · have notAbove := replaced.notAbove directory
        have likeBetween : Resembles [site.name] site.base between := by
          refine like.shrunk gone.here ?_
          intro other entry _ found
          by_cases inside : place <+: other
          · obtain ⟨way, rfl⟩ := inside
            simp [vanished] at found
          · rwa [gone.get?_other inside] at found
        obtain ⟨source, _, goal, resolvedSource, _, resolvedGoal, moved⟩ :=
          gone.wellFormed.rename (restored _ some)
        obtain rfl := resolve_parking likeBetween ((gone.get?_other notAbove).trans directory)
          resolvedSource
        obtain ⟨leads', _⟩ := resolve_target likeBetween admits target resolvedGoal
        obtain rfl := leads.unique leads'
        rcases moved with ⟨same, _⟩ | ⟨moved, _⟩
        · exact absurd (same ▸ by simp [parking, staging] : site.name ∈ place) clear
        refine undoable.undone rest replaced moved.wellFormed (moved.here.trans gone.here) ?_ ?_
        · intro way
          rw [moved.get?_goal, gone.get?_other, replaced.parked way, some]
          · rfl
          · rw [parking, List.append_assoc]
            exact fun above => notAbove (above_staging clear above)
        · intro other outside notParking
          rw [moved.get?_other outside notParking, gone.get?_other outside]

end PromotionSite

/-- What is set aside below some directory can be moved back. -/
def Conduct.Restores (conduct : Conduct) (staging : Path) : Prop :=
  ∀ tree index target answer after,
    conduct tree (.rename (PromotionRoute.parkingPlace staging index) target) answer after
    → answer = .ok ()

/-- Files can be removed. -/
def Conduct.RemovesFiles (conduct : Conduct) : Prop :=
  ∀ tree path answer after, conduct tree (.removeFile path) answer after → answer = .ok ()

namespace PromotionSite

variable {site : PromotionSite} {tree after : FileTree} {conduct : Conduct}

/-- Undoing all moves, the last one first, by induction on them. -/
theorem Undoable.rollback {installed : List InstalledFile}
    (undoable : site.Undoable installed tree) (lawful : conduct.Lawful)
    (removes : conduct.RemovesFiles) (restores : conduct.Restores site.stagingPath)
    {result : Except PromotionFault Unit}
    (run : (PromotionRoute.rollback installed).Yields conduct tree result after)
    : result = .ok () ∧ site.Undoable [] after := by
  induction installed generalizing tree with
  | nil =>
      obtain ⟨rfl, rfl⟩ := yields_pure.mp run
      exact ⟨rfl, undoable⟩
  | cons file rest ih =>
      unfold PromotionRoute.rollback at run
      obtain ⟨_, _, removed⟩ | ⟨_, between, removed, run⟩ := yields_bind.mp run
      · exact absurd (yields_attempt.mp removed).1 (by simp)
      obtain ⟨_, answer, removed⟩ := yields_attempt.mp removed
      obtain rfl := removes _ _ _ _ removed
      have removed := lawful _ _ _ _ removed
      have parkedAt : file.parked = none
          ∨ file.parked = some (PromotionRoute.parkingPlace site.stagingPath rest.length) := by
        cases undoable.restorable with
        | replaced _ _ _ _ parked _ => exact parked
      rcases parkedAt with none | some
      · rw [none] at run
        have undone := undoable.undo removed (by simp [none]) fun _ => rfl
        exact ih undone run
      · rw [some] at run
        obtain ⟨_, _, moved⟩ | ⟨_, middle, moved, run⟩ := yields_bind.mp run
        · exact absurd (yields_attempt.mp moved).1 (by simp)
        obtain ⟨_, answer, moved⟩ := yields_attempt.mp moved
        obtain rfl := restores _ _ _ _ _ moved
        refine ih (undoable.undo removed ?_ (by simp [some])) run
        intro place same
        obtain rfl := Option.some.inj (some.symm.trans same)
        exact lawful _ _ _ _ moved

end PromotionSite

end Vetting
