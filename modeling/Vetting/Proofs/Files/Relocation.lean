import Vetting.Proofs.Files.Growth

/-! What stands where once files have been moved, removed, written or copied, for changes that
succeed. Where a path leads is told by the tree before the change.
-/

namespace Vetting.FileTree

-----------------------------------------------------------------------------------------
-- Looking up
-----------------------------------------------------------------------------------------

theorem lookup_eq_ok {tree : FileTree} {follow : Bool} {path : Path} {place : Place}
    {entry : Entry}
    : tree.lookup follow path = .ok (place, entry)
      ↔ tree.resolve follow path = .ok place ∧ tree.get? place = some entry := by
  unfold lookup
  cases resolved : tree.resolve follow path with
  | error fault => simp [bind, Except.bind]
  | ok found =>
      cases here : tree.get? found with
      | none =>
          simp only [bind, Except.bind, here, Except.ok.injEq]
          constructor
          · exact fun looked => absurd looked (by simp [throw, throwThe, MonadExceptOf.throw])
          · rintro ⟨rfl, some⟩
            simp [here] at some
      | some other =>
          simp only [bind, Except.bind, here, pure, Except.pure, Except.ok.injEq, Prod.mk.injEq]
          constructor
          · rintro ⟨rfl, rfl⟩
            exact ⟨rfl, here⟩
          · rintro ⟨rfl, some⟩
            exact ⟨rfl, Option.some.inj (here.symm.trans some)⟩

theorem exists?_eq_true {tree : FileTree} {path : Path}
    : tree.exists? path = true
      ↔ ∃ place entry, tree.resolve false path = .ok place ∧ tree.get? place = some entry := by
  unfold exists?
  cases looked : tree.lookup false path with
  | error fault =>
      simp only [Bool.false_eq_true, false_iff]
      rintro ⟨place, entry, found⟩
      rw [lookup_eq_ok.mpr found] at looked
      exact absurd looked (by simp)
  | ok found =>
      simp only [true_iff]
      exact ⟨found.1, found.2, lookup_eq_ok.mp looked⟩

theorem readFile_eq_ok {tree : FileTree} {path : Path} {content : Bytes}
    : tree.readFile path = .ok content
      ↔ ∃ place mode,
          tree.resolve true path = .ok place ∧ tree.get? place = some (.file content mode) := by
  unfold readFile
  constructor
  · intro read
    cases looked : tree.lookup true path with
    | error fault => simp [looked, bind, Except.bind] at read
    | ok found =>
        obtain ⟨place, entry⟩ := found
        obtain ⟨resolved, here⟩ := lookup_eq_ok.mp looked
        simp only [looked, bind, Except.bind] at read
        cases entry with
        | file bytes mode =>
            obtain rfl := Except.ok.inj read
            exact ⟨place, mode, resolved, here⟩
        | _ => simp [throw, throwThe, MonadExceptOf.throw] at read
  · rintro ⟨place, mode, resolved, found⟩
    simp [lookup_eq_ok.mpr ⟨resolved, found⟩, bind, Except.bind, pure, Except.pure]

/-- A walk through no links ends where its names lead one after another, by induction on them. -/
theorem walk_straight {tree : FileTree} {follow : Bool} {links : Nat} {place goal : Place}
    {names : List Bytes} (proper : ∀ name ∈ names, Path.IsName name)
    (noLinks
      : ∀ front,
          front ≠ []
          → front <+: names
          → (front = names → follow = true)
          → ∀ target, tree.get? (place ++ front) ≠ some (.link target))
    (walked : tree.walk follow links place names = .ok goal)
    : goal = place ++ names := by
  induction names generalizing place with
  | nil => simpa using (Except.ok.inj ((walk_nil tree follow links place).symm.trans walked)).symm
  | cons name rest ih =>
      simp only [List.mem_cons, forall_eq_or_imp] at proper
      have step := step_of_isName place proper.1
      obtain ⟨_, _, stride⟩ := walk_cons.mp walked
      cases stride with
      | ended last here _ => simp [last, here, step]
      | entered _ _ onward =>
          rw [step] at onward
          have split : place ++ name :: rest = (place ++ [name]) ++ rest := by simp
          rw [split]
          refine ih proper.2 (fun front some isFront last => ?_) onward
          have := noLinks (name :: front) (by simp) (by simpa using isFront) (by simpa using last)
          simpa using this
      | turned link _ followed _ =>
          rw [step] at link
          exact absurd link
            (noLinks [name] (by simp) (by simp) (fun all => followed (by simpa using all.symm)) _)

-----------------------------------------------------------------------------------------
-- Moving
-----------------------------------------------------------------------------------------

/-- A place has been moved to another one, neither of which lies in the other. -/
structure Moved (tree : FileTree) (place goal : Place) (after : FileTree) : Prop where
  wellFormed : after.WellFormed
  here : after.here = tree.here
  outside : ¬ place <+: goal
  apart : ¬ goal <+: place
  get?_eq
    : ∀ other,
        after.get? other
        = if goal <+: other then tree.get? (place ++ other.drop goal.length)
          else if place <+: other then none
          else tree.get? other

theorem Moved.get?_goal {tree after : FileTree} {place goal : Place}
    (moved : tree.Moved place goal after) (way : Place)
    : after.get? (goal ++ way) = tree.get? (place ++ way) := by
  simp [moved.get?_eq]

theorem Moved.get?_other {tree after : FileTree} {place goal other : Place}
    (moved : tree.Moved place goal after) (notGoal : ¬ goal <+: other)
    (notPlace : ¬ place <+: other)
    : after.get? other = tree.get? other := by
  simp [moved.get?_eq, notGoal, notPlace]

theorem Moved.get?_source {tree after : FileTree} {place goal : Place}
    (moved : tree.Moved place goal after) (way : Place)
    : after.get? (place ++ way) = none := by
  have apart : ¬ goal <+: place ++ way := by
    intro inside
    rcases List.prefix_or_prefix_of_prefix inside (List.prefix_append place way) with h | h
    · exact moved.apart h
    · exact moved.outside h
  simp [moved.get?_eq, apart]

theorem WellFormed.moved {tree : FileTree} (wf : tree.WellFormed) {place goal : Place}
    (free : tree.Free place goal) (apart : ¬ goal <+: place)
    : tree.Moved place goal (tree.move place goal) :=
  ⟨wf.move free, rfl, free.outside, apart, wf.get?_move free⟩

/-- What stood at a place may be replaced when nothing stands below it. -/
theorem WellFormed.moved_over {tree : FileTree} (wf : tree.WellFormed) {place goal : Place}
    {old : Entry} (found : tree.get? goal = some old) (outside : ¬ place <+: goal)
    (apart : ¬ goal <+: place)
    : tree.Moved place goal ((tree.drop goal).move place goal) := by
  have belowRoot : goal ≠ [] := fun root => apart (root ▸ List.nil_prefix)
  have placeBelow : place ≠ [] := fun root => outside (root ▸ List.nil_prefix)
  have shorter : ¬ goal <+: goal.dropLast := by
    intro inside
    have := inside.length_le
    have := List.length_pos_of_ne_nil belowRoot
    simp only [List.length_dropLast] at *
    omega
  have free : (tree.drop goal).Free place goal := by
    refine ⟨belowRoot, ?_, outside, by simp [wf.get?_drop goal belowRoot]⟩
    obtain ⟨mode, parent⟩ := wf.parent belowRoot found
    by_cases root : goal.dropLast = []
    · exact ⟨_, by rw [root, get?_nil]⟩
    · exact ⟨mode, by rw [wf.get?_drop goal root, if_neg shorter, parent]⟩
  have moved := (wf.drop goal).moved free apart
  refine ⟨moved.wellFormed, rfl, outside, apart, fun other => ?_⟩
  rw [moved.get?_eq]
  split
  · rw [wf.get?_drop goal (by simp [placeBelow]), if_neg]
    intro inside
    rcases List.prefix_or_prefix_of_prefix inside (List.prefix_append place _) with h | h
    · exact apart h
    · exact outside h
  · rename_i notGoal
    split
    · rfl
    · by_cases root : other = []
      · simp [root]
      · rw [wf.get?_drop goal root, if_neg notGoal]

/-- Moving from one path to another moves what stands at the one place to the other, unless they are
the same.
-/
theorem WellFormed.rename {tree after : FileTree} (wf : tree.WellFormed) {source target : Path}
    (renamed : tree.rename source target = .ok after)
    : ∃ place entry goal,
        tree.resolve false source = .ok place
        ∧ tree.get? place = some entry
        ∧ tree.resolve false target = .ok goal
        ∧ (place = goal ∧ after = tree
          ∨ tree.Moved place goal after
            ∧ ∀ old, tree.get? goal = some old → old.isDirectory = entry.isDirectory) := by
  unfold FileTree.rename at renamed
  cases looked : tree.lookup false source with
  | error fault => simp [looked, bind, Except.bind] at renamed
  | ok found =>
      obtain ⟨place, entry⟩ := found
      obtain ⟨resolved, here⟩ := lookup_eq_ok.mp looked
      simp only [looked, bind, Except.bind] at renamed
      cases resolvedTarget : tree.resolve false target with
      | error fault => simp [resolvedTarget] at renamed
      | ok goal =>
          refine ⟨place, entry, goal, resolved, here, rfl, ?_⟩
          simp only [resolvedTarget] at renamed
          split at renamed
          · rename_i same
            exact Or.inl ⟨by simpa using same, (Except.ok.inj renamed).symm⟩
          refine Or.inr ?_
          rename_i other
          have outside : ¬ place <+: goal := by
            intro inside
            rw [← List.isPrefixOf_iff_prefix] at inside
            simp [inside, throw, throwThe, MonadExceptOf.throw] at renamed
          have apart : ¬ goal <+: place := by
            intro inside
            rw [← List.isPrefixOf_iff_prefix] at inside
            split at renamed
            · exact absurd renamed (by simp [throw, throwThe, MonadExceptOf.throw])
            · simp [throw, throwThe, MonadExceptOf.throw] at renamed
          rw [if_neg (by simpa using outside), if_neg (by simpa using apart)] at renamed
          split at renamed
          · rename_i free
            obtain rfl := Except.ok.inj renamed
            obtain ⟨belowRoot, directory⟩ := wf.resolve_free resolvedTarget free
            exact ⟨wf.moved ⟨belowRoot, directory, outside, free⟩ apart, by simp [free]⟩
          · rename_i old found
            have kinds : old.isDirectory = entry.isDirectory := by
              cases kind : entry.isDirectory <;> cases oldKind : old.isDirectory <;>
                simp [kind, oldKind, throw, throwThe, MonadExceptOf.throw] at renamed ⊢
            simp only [kinds, Bool.and_not_self, Bool.not_and_self, Bool.false_eq_true,
              if_false] at renamed
            split at renamed
            · exact absurd renamed (by simp [throw, throwThe, MonadExceptOf.throw])
            · obtain rfl := Except.ok.inj renamed
              refine ⟨wf.moved_over found outside apart, ?_⟩
              intro same found'
              rw [found] at found'
              exact Option.some.inj found' ▸ kinds

-----------------------------------------------------------------------------------------
-- Removing
-----------------------------------------------------------------------------------------

/-- A place is gone, with everything below it. -/
structure Removed (tree : FileTree) (place : Place) (after : FileTree) : Prop where
  wellFormed : after.WellFormed
  here : after.here = tree.here
  get?_eq
    : ∀ other, other ≠ [] → after.get? other = if place <+: other then none else tree.get? other

theorem Removed.get?_below {tree after : FileTree} {place : Place}
    (removed : tree.Removed place after) (belowRoot : place ≠ []) (way : Place)
    : after.get? (place ++ way) = none := by
  rw [removed.get?_eq _ (by simp [belowRoot]), if_pos (List.prefix_append _ _)]

theorem Removed.get?_other {tree after : FileTree} {place other : Place}
    (removed : tree.Removed place after) (outside : ¬ place <+: other)
    : after.get? other = tree.get? other := by
  by_cases root : other = []
  · simp [root]
  · rw [removed.get?_eq other root, if_neg outside]

theorem WellFormed.removed {tree : FileTree} (wf : tree.WellFormed) (place : Place)
    : tree.Removed place (tree.drop place) :=
  ⟨wf.drop place, rfl, fun _ below => wf.get?_drop place below⟩

/-- Only what is no directory is removed as a file. -/
theorem WellFormed.removeFile {tree after : FileTree} (wf : tree.WellFormed) {path : Path}
    (removed : tree.removeFile path = .ok after)
    : ∃ place entry,
        tree.resolve false path = .ok place
        ∧ tree.get? place = some entry
        ∧ entry.isDirectory = false
        ∧ tree.Removed place after := by
  unfold FileTree.removeFile at removed
  cases looked : tree.lookup false path with
  | error fault => simp [looked, bind, Except.bind] at removed
  | ok found =>
      obtain ⟨place, entry⟩ := found
      obtain ⟨resolved, here⟩ := lookup_eq_ok.mp looked
      simp only [looked, bind, Except.bind] at removed
      cases entry with
      | directory mode => simp [throw, throwThe, MonadExceptOf.throw] at removed
      | _ =>
          obtain rfl := Except.ok.inj removed
          exact ⟨place, _, resolved, here, rfl, wf.removed place⟩

theorem WellFormed.removeDirectory {tree after : FileTree} (wf : tree.WellFormed) {path : Path}
    (removed : tree.removeDirectory path = .ok after)
    : ∃ place, tree.resolve false path = .ok place ∧ tree.Removed place after := by
  unfold FileTree.removeDirectory at removed
  cases looked : tree.lookup false path with
  | error fault => simp [looked, bind, Except.bind] at removed
  | ok found =>
      obtain ⟨place, entry⟩ := found
      obtain ⟨resolved, here⟩ := lookup_eq_ok.mp looked
      simp only [looked, bind, Except.bind] at removed
      cases entry with
      | directory mode =>
          obtain rfl := Except.ok.inj removed
          exact ⟨place, resolved, wf.removed place⟩
      | _ => simp [throw, throwThe, MonadExceptOf.throw] at removed

/-- A directory to which a path leads can be removed. -/
theorem removeDirectory_eq_ok {tree : FileTree} {path : Path} {place : Place} {mode : Nat}
    (resolved : tree.resolve false path = .ok place)
    (found : tree.get? place = some (.directory mode))
    : tree.removeDirectory path = .ok (tree.drop place) := by
  simp [FileTree.removeDirectory, lookup_eq_ok.mpr ⟨resolved, found⟩, bind, Except.bind, pure,
    Except.pure]

-----------------------------------------------------------------------------------------
-- Writing
-----------------------------------------------------------------------------------------

/-- A file has been written where a path leads, to a place where a file or nothing stood. -/
structure Written (tree : FileTree) (path : Path) (place : Place) (content : Bytes) (mode : Nat)
    (after : FileTree)
    : Prop where
  resolved : tree.resolve true path = .ok place
  before : ∀ old, tree.get? place = some old → old.isFile = true
  wellFormed : after.WellFormed
  here : after.here = tree.here
  get?_eq
    : ∀ other, after.get? other = if other = place then some (.file content mode) else tree.get? other

theorem WellFormed.written {tree : FileTree} (wf : tree.WellFormed) {path : Path}
    {place : Place} (content : Bytes) (mode : Nat) (resolved : tree.resolve true path = .ok place)
    (before : ∀ old, tree.get? place = some old → old.isFile = true)
    : tree.Written path place content mode (tree.put place (.file content mode)) := by
  have noDirectory : ∀ mode, tree.get? place ≠ some (.directory mode) := by
    intro mode found
    simpa [Entry.isFile] using before _ found
  have spot : place ≠ [] ∧ ∃ mode, tree.get? place.dropLast = some (.directory mode) := by
    cases found : tree.get? place with
    | none => exact wf.resolve_free resolved found
    | some old =>
        have belowRoot : place ≠ [] := by
          rintro rfl
          exact noDirectory _ (get?_nil tree)
        exact ⟨belowRoot, wf.parent belowRoot found⟩
  have after : (tree.put place (.file content mode)).WellFormed :=
    wf.put spot.1 spot.2 (Or.inr fun name => wf.below_none (List.cons_ne_nil name []) noDirectory)
  exact ⟨resolved, before, after, here_put .., wf.get?_put after spot.1⟩

/-- Once a file has been written at the end of a walk, the walk still leads there, by induction on
the walk.
-/
theorem Written.walk {tree after : FileTree} {path : Path} {place : Place} {content : Bytes}
    {mode : Nat} (written : tree.Written path place content mode after) {links : Nat}
    {start : Place} {names : List Bytes} (walked : tree.walk true links start names = .ok place)
    : after.walk true links start names = .ok place := by
  have other : ∀ {spot : Place} {entry : Entry},
      tree.get? spot = some entry → entry.isFile = false → after.get? spot = some entry := by
    intro spot entry found noFile
    rw [written.get?_eq, if_neg, found]
    rintro rfl
    simp [written.before _ found] at noFile
  have here : after.get? place = some (.file content mode) := by rw [written.get?_eq, if_pos rfl]
  replace walked := walked_of_walk walked
  refine Walked.walk ?_
  generalize goal : place = spot at walked
  induction walked with
  | arrived links spot => exact .arrived links spot
  | ended directory short _ =>
      exact .entered (other directory rfl) short (goal ▸ here) (by simp) (.arrived _ _)
  | @entered links start name rest spot mode' entry directory short found noLink onward ih =>
      have onwards := ih goal
      by_cases same : step start name = place
      · exact .entered (other directory rfl) short (same ▸ here) (by simp) onwards
      · refine .entered (other directory rfl) short ?_ noLink onwards
        rw [written.get?_eq, if_neg same, found]
  | turned directory short found followed onward ih =>
      exact .turned (other directory rfl) short (other found rfl) followed (ih goal)

theorem WellFormed.writeFile {tree after : FileTree} (wf : tree.WellFormed) {path : Path}
    {content : Bytes} (wrote : tree.writeFile path content = .ok after)
    : ∃ place mode, tree.Written path place content mode after := by
  unfold FileTree.writeFile at wrote
  cases resolved : tree.resolve true path with
  | error fault => simp [resolved, bind, Except.bind] at wrote
  | ok place =>
      simp only [resolved, bind, Except.bind] at wrote
      cases found : tree.get? place with
      | none =>
          simp only [found] at wrote
          obtain rfl := Except.ok.inj wrote
          exact ⟨place, _, wf.written content _ resolved (by simp [found])⟩
      | some old =>
          cases old with
          | file _ mode =>
              simp only [found] at wrote
              obtain rfl := Except.ok.inj wrote
              refine ⟨place, mode, wf.written content mode resolved ?_⟩
              intro old same
              rw [found] at same
              rw [← Option.some.inj same, Entry.isFile]
          | _ => simp [found, throw, throwThe, MonadExceptOf.throw] at wrote

/-- Copying a file writes its bytes where the other path leads. -/
theorem WellFormed.copyFile {tree after : FileTree} (wf : tree.WellFormed)
    {source target : Path} (copied : tree.copyFile source target = .ok after)
    : ∃ content place mode,
        tree.readFile source = .ok content ∧ tree.Written target place content mode after := by
  unfold FileTree.copyFile at copied
  cases looked : tree.lookup true source with
  | error fault => simp [looked, bind, Except.bind] at copied
  | ok found =>
      obtain ⟨origin, entry⟩ := found
      simp only [looked, bind, Except.bind] at copied
      cases entry with
      | file content mode =>
          cases wrote : tree.writeFile target content with
          | error fault => simp [wrote] at copied
          | ok between =>
              obtain ⟨place, first, written⟩ := wf.writeFile wrote
              obtain ⟨usable, walked⟩ := resolve_eq_ok.mp written.resolved
              have again : between.resolve true target = .ok place :=
                resolve_eq_ok.mpr ⟨usable, written.here ▸ written.walk walked⟩
              simp only [wrote, again] at copied
              obtain rfl := Except.ok.inj copied
              have second := written.wellFormed.written content mode again (by
                intro old found
                rw [written.get?_eq, if_pos rfl] at found
                rw [← Option.some.inj found, Entry.isFile])
              refine ⟨content, place, mode, ?_, written.resolved, written.before, second.wellFormed,
                second.here.trans written.here, fun other => ?_⟩
              · obtain ⟨resolved, here⟩ := lookup_eq_ok.mp looked
                exact readFile_eq_ok.mpr ⟨origin, mode, resolved, here⟩
              · rw [second.get?_eq, written.get?_eq]
                split <;> rfl
      | _ => simp [throw, throwThe, MonadExceptOf.throw] at copied

end Vetting.FileTree
