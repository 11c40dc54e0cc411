import Vetting.Proofs.Files.Ways

/-! Trees that grow: making directories leaves everything that stands as it is, and adds directories
at places to which the paths of these directories lead.
-/

namespace Vetting.FileTree

-----------------------------------------------------------------------------------------
-- Creating an entry
-----------------------------------------------------------------------------------------

/-- What creating an entry where a path leads does: it is put at a free place in a directory. -/
structure Created (tree : FileTree) (path : Path) (entry : Entry) (place : Place)
    (after : FileTree)
    : Prop where
  resolved : tree.resolve false path = .ok place
  free : tree.get? place = none
  belowRoot : place ≠ []
  directory : ∃ mode, tree.get? place.dropLast = some (.directory mode)
  wellFormed : after.WellFormed
  get?_eq : ∀ other, after.get? other = if other = place then some entry else tree.get? other
  here : after.here = tree.here

theorem WellFormed.put_free {tree : FileTree} (wf : tree.WellFormed) {place : Place}
    (entry : Entry) (belowRoot : place ≠ [])
    (directory : ∃ mode, tree.get? place.dropLast = some (.directory mode))
    (free : tree.get? place = none)
    : (tree.put place entry).WellFormed := by
  refine wf.put belowRoot directory (Or.inr fun name => ?_)
  exact wf.below_none (by simp) (by simp [free])

/-- Where a path leads to nothing, that is in a directory. -/
theorem WellFormed.resolve_free {tree : FileTree} (wf : tree.WellFormed) {follow : Bool}
    {path : Path} {place : Place} (resolved : tree.resolve follow path = .ok place)
    (free : tree.get? place = none)
    : place ≠ [] ∧ ∃ mode, tree.get? place.dropLast = some (.directory mode) := by
  obtain ⟨usable, walked⟩ := resolve_eq_ok.mp resolved
  have starts : path.names = [] → tree.get? (path.start tree.here) ≠ none := by
    intro noNames
    simp [Path.start, Path.isAbsolute_of_names_nil usable.nonempty noNames]
  obtain ⟨directory, name, mode, rfl, found⟩ := wf.walk_free starts walked free
  exact ⟨by simp, mode, by simpa using found⟩

theorem WellFormed.create {tree after : FileTree} (wf : tree.WellFormed) {path : Path}
    {entry : Entry} (created : tree.create path entry = .ok after)
    : ∃ place, tree.Created path entry place after := by
  unfold FileTree.create at created
  cases resolved : tree.resolve false path with
  | error fault => simp [resolved, bind, Except.bind] at created
  | ok place =>
      simp only [resolved, bind, Except.bind] at created
      split at created
      · simp at created
      · rename_i free
        obtain rfl := Except.ok.inj created
        obtain ⟨belowRoot, directory⟩ := wf.resolve_free resolved free
        have after := wf.put_free entry belowRoot directory free
        exact ⟨place, resolved, free, belowRoot, directory, after,
          wf.get?_put after belowRoot, by simp⟩

theorem WellFormed.createDirectory {tree after : FileTree} (wf : tree.WellFormed) {path : Path}
    (created : tree.createDirectory path = .ok after)
    : ∃ place, tree.Created (closed path) (.directory Entry.directoryMode) place after :=
  wf.create created

theorem Created.nonempty {tree after : FileTree} {path : Path} {entry : Entry} {place : Place}
    (created : tree.Created (closed path) entry place after)
    : path.isEmpty = false := by
  cases empty : path.isEmpty with
  | false => rfl
  | true =>
      have usable := (resolve_eq_ok.mp created.resolved).1.nonempty
      rw [Path.isEmpty, List.isEmpty_iff] at empty
      simp [closed, Path.isEmpty, empty] at usable

/-- Creating an entry keeps all that stands. -/
theorem Created.keeps {tree after : FileTree} {path : Path} {entry : Entry} {place : Place}
    (created : tree.Created path entry place after) {other : Place} {found : Entry}
    (stands : tree.get? other = some found)
    : after.get? other = some found := by
  rw [created.get?_eq, if_neg, stands]
  rintro rfl
  simp [created.free] at stands

/-- A file that has been made does not turn a way off: where names lead, they led before. -/
theorem Created.course_unique {tree after : FileTree} {path : Path} {content : Bytes} {mode : Nat}
    {place : Place} (created : tree.Created path (.file content mode) place after) {start : Place}
    {names : List Bytes} {links left others : Nat} {goal other : Place}
    (course : tree.Course links start names left goal)
    (again : after.Course links start names others other)
    : other = goal := by
  have like : Resembles [] tree after := by
    refine ⟨created.here, ?_, ?_⟩
    · intro spot target _ found
      rw [created.get?_eq] at found
      split at found
      · exact absurd found (by simp)
      · exact found
    · intro spot mode _ found target
      rw [created.get?_eq] at found
      split at found
      · exact absurd found (by simp)
      · simp [found]
  have noneHidden : tree.LinksClear [] := fun _ _ _ _ => clear_of_nothing _
  have one := course.leads noneHidden (.refl _ _) (clear_of_nothing _) (clear_of_nothing _)
  have two := again.leads noneHidden like (clear_of_nothing _) (clear_of_nothing _)
  exact two.1.unique one.1

/-- What holds of a tree, and is kept whenever one of some directories is made, holds once they have
been made, by induction on the chain of directories.
-/
theorem createChain_induction {holds : FileTree → Prop} {chain : List Path}
    (kept
      : ∀ tree after path,
          path ∈ chain → holds tree → tree.createDirectory path = .ok after → holds after)
    {tree : FileTree} (start : holds tree)
    : holds (tree.createChain chain).2 := by
  induction chain with
  | nil => exact start
  | cons path outer ih =>
      have settled : ∀ (tree : FileTree) (fault : FileFault), holds tree →
          holds (if tree.isDirectory path then ((.ok () : Except FileFault Unit), tree)
            else (.error fault, tree)).2 := by
        intro tree fault start
        split <;> exact start
      have above := ih fun tree after path member => kept tree after path (by simp [member])
      unfold createChain
      split
      · exact start
      · simp only
        split
        · exact kept _ _ path (by simp) start ‹_›
        · split
          · rename_i made
            simpa [made] using above
          · rename_i higher made
            have aboveHolds : holds higher := by simpa [made] using above
            split
            · exact kept _ _ path (by simp) aboveHolds ‹_›
            · exact settled _ _ aboveHolds
        · exact settled _ _ start

-----------------------------------------------------------------------------------------
-- Growth
-----------------------------------------------------------------------------------------

/-- Where nothing is hidden, a tree has what its base has, and directories at places at which some
may be made.
-/
structure Grows (hidden : List Bytes) (made : Place → Prop) (base tree : FileTree) : Prop where
  here : tree.here = base.here
  keeps
    : ∀ place entry,
        Clear hidden place → base.get? place = some entry → tree.get? place = some entry
  adds
    : ∀ place entry,
        Clear hidden place
        → base.get? place = none
        → tree.get? place = some entry
        → entry.isDirectory ∧ made place

theorem Grows.refl (hidden : List Bytes) (made : Place → Prop) (tree : FileTree)
    : Grows hidden made tree tree :=
  ⟨rfl, fun _ _ _ found => found, fun _ _ _ free found => by simp [free] at found⟩

theorem Grows.trans {hidden : List Bytes} {made : Place → Prop} {base middle tree : FileTree}
    (first : Grows hidden made base middle) (second : Grows hidden made middle tree)
    : Grows hidden made base tree := by
  refine ⟨second.here.trans first.here, ?_, ?_⟩
  · exact fun place entry clear found => second.keeps _ _ clear (first.keeps _ _ clear found)
  · intro place entry clear free found
    cases between : middle.get? place with
    | none => exact second.adds _ _ clear between found
    | some other =>
        have same := second.keeps _ _ clear between
        obtain rfl := Option.some.inj (same.symm.trans found)
        exact first.adds _ _ clear free between

theorem Grows.mono {hidden more : List Bytes} {made allowed : Place → Prop}
    {base tree : FileTree} (grows : Grows hidden made base tree) (hides : hidden ⊆ more)
    (allows : ∀ place, made place → allowed place)
    : Grows more allowed base tree := by
  have clear : ∀ place, Clear more place → Clear hidden place :=
    fun place clear name member isHidden => clear name member (hides isHidden)
  refine ⟨grows.here, fun place entry h => grows.keeps _ _ (clear place h), ?_⟩
  exact fun place entry h free found =>
    (grows.adds _ _ (clear place h) free found).imp_right (allows place)

/-- A grown tree has the links of its base. -/
theorem Grows.resembles {hidden : List Bytes} {made : Place → Prop} {base tree : FileTree}
    (grows : Grows hidden made base tree)
    : Resembles hidden base tree := by
  refine ⟨grows.here, ?_, ?_⟩
  · intro place target clear found
    cases old : base.get? place with
    | none =>
        have := (grows.adds _ _ clear old found).1
        simp [Entry.isDirectory] at this
    | some entry => rw [← grows.keeps _ _ clear old, found]
  · intro place mode clear found target old
    have := grows.keeps _ _ clear old
    simp [found] at this

/-- Making one directory lets a tree grow. -/
theorem Created.grows {tree after : FileTree} {path : Path} {place : Place} {mode : Nat}
    (created : tree.Created path (.directory mode) place after) {hidden : List Bytes}
    {made : Place → Prop} (allowed : Clear hidden place → made place)
    : Grows hidden made tree after := by
  refine ⟨created.here, ?_, ?_⟩
  · exact fun other entry _ found => created.keeps found
  · intro other entry clear free found
    rw [created.get?_eq] at found
    split at found
    · rename_i same
      obtain rfl := Option.some.inj found
      exact ⟨rfl, same ▸ allowed (same ▸ clear)⟩
    · simp [free] at found

/-- Making directories keeps a tree well formed and all that stands in it. -/
theorem WellFormed.createChain {tree : FileTree} (wf : tree.WellFormed) (chain : List Path)
    : (tree.createChain chain).2.WellFormed
      ∧ Grows [] (fun _ => True) tree (tree.createChain chain).2 := by
  have kept : ∀ before after path, path ∈ chain →
      before.WellFormed ∧ Grows [] (fun _ => True) tree before →
      before.createDirectory path = .ok after →
      after.WellFormed ∧ Grows [] (fun _ => True) tree after := by
    intro before after path _ ⟨wf, grows⟩ made
    obtain ⟨place, created⟩ := wf.createDirectory made
    exact ⟨created.wellFormed, grows.trans (created.grows fun _ => trivial)⟩
  exact createChain_induction kept ⟨wf, .refl ..⟩

end Vetting.FileTree
