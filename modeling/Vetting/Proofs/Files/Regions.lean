import Vetting.Proofs.Files.Execution
import Vetting.Proofs.Files.Tracing

/-! Regions of a tree: some places, in which changes are free, while elsewhere all that stands is kept
and nothing comes but directories at places at which some may be made. Paths whose names pass no links
lead where the names do, so it can be told from the paths of an operation in which region it works.
-/

namespace Vetting

open FileTree

namespace FileTree

variable {tree middle after : FileTree} {follow : Bool} {links : Nat} {place goal start : Place}
  {names way : List Bytes} {path : Path} {entry : Entry}

-----------------------------------------------------------------------------------------
-- Paths that pass no links
-----------------------------------------------------------------------------------------

/-- A walk that follows no link ends where its names lead one after another, by induction on it. -/
theorem Walked.straight (walked : tree.Walked follow links place names goal)
    (free
      : ∀ front,
          front ≠ []
          → front <+: names
          → (front = names → follow = true)
          → ∀ target, tree.get? (front.foldl step place) ≠ some (.link target))
    : goal = names.foldl step place := by
  induction walked with
  | arrived => rfl
  | ended => rfl
  | entered _ _ _ _ _ ih =>
      refine ih fun front some isFront last => ?_
      exact free (_ :: front) (by simp) (by simpa using isFront) (by simpa using last)
  | turned _ _ found followed _ _ =>
      exact absurd found (free [_] (by simp) (by simp) (by simpa [eq_comm] using followed) _)

/-- A path that passes no links leads where its names do; one that is not followed may be the last. -/
theorem LinkFree.resolve_eq (free : tree.LinkFree start names.dropLast)
    (last : follow = true → ∀ target, tree.get? (names.foldl step start) ≠ some (.link target))
    (starts : path.start tree.here = start) (named : path.names = names)
    (resolved : tree.resolve follow path = .ok place)
    : place = names.foldl step start := by
  subst starts named
  refine (walked_of_walk (resolve_eq_ok.mp resolved).2).straight ?_
  intro front some isFront followed
  by_cases whole : front = path.names
  · subst whole
    exact last (followed rfl)
  · refine free front some ?_
    have split := List.dropLast_concat_getLast (List.ne_nil_of_length_pos
      (Nat.lt_of_lt_of_le (List.length_pos_of_ne_nil some) isFront.length_le))
    rw [← split, List.prefix_concat_iff, split] at isFront
    exact isFront.resolve_left whole

/-- Directories stand where the first of some names lead one after another. -/
def Founded (tree : FileTree) (start : Place) (way : List Bytes) : Prop :=
  ∀ front, front <+: way → ∃ mode, tree.get? (front.foldl step start) = some (.directory mode)

/-- A course that passes no links passes directories where its names lead, by induction on it. -/
theorem Course.founded {left : Nat} (course : tree.Course links place way left goal)
    (free : tree.LinkFree place way) (ends : ∃ mode, tree.get? goal = some (.directory mode))
    : tree.Founded place way := by
  induction course with
  | stay =>
      intro front isFront
      rwa [List.prefix_nil.mp isFront]
  | enter directory _ _ _ ih =>
      intro front isFront
      cases front with
      | nil => exact ⟨_, directory⟩
      | cons name front =>
          obtain ⟨rfl, inner⟩ := List.cons_prefix_cons.mp isFront
          exact ih free.rest ends front inner
  | turn _ _ found _ _ => exact absurd found (free.first _)

/-- Where names lead to directories one after another, there is a course along them, by induction on
them.
-/
theorem Founded.course (founded : tree.Founded place way) (links : Nat)
    (short : ∀ name ∈ way, name.length ≤ nameLimit)
    : tree.Course links place way links (way.foldl step place) := by
  induction way generalizing place with
  | nil => exact .stay links place
  | cons name rest ih =>
      obtain ⟨first, others⟩ := List.forall_mem_cons.mp short
      obtain ⟨mode, here⟩ := founded [] List.nil_prefix
      obtain ⟨mode', next⟩ := founded [name] (by simp)
      refine .enter here first next (ih (fun front isFront => ?_) others)
      exact founded (name :: front) (by simpa using isFront)

/-- What stands somewhere below directories stands in directories. -/
theorem Founded.above (founded : tree.Founded place way) (wf : tree.WellFormed)
    (proper : ∀ name ∈ names, Path.IsName name) (some : names ≠ [])
    (stands : tree.get? (way.foldl step place ++ names) = Option.some entry)
    : tree.Founded place (way ++ names.dropLast) := by
  intro front isFront
  rcases List.prefix_or_prefix_of_prefix isFront (List.prefix_append _ _) with short | ⟨rest, rfl⟩
  · exact founded front short
  have isRest := (List.prefix_append_right_inj _).mp isFront
  obtain ⟨more, rfl⟩ := isRest.trans (List.dropLast_prefix names)
  have further : more ≠ [] := by
    rintro rfl
    have := isRest.length_le
    have := List.length_pos_of_ne_nil some
    simp only [List.append_nil, List.length_dropLast] at *
    omega
  rw [List.foldl_append,
    foldl_step_of_isName _ fun name member => proper name (List.mem_append_left _ member)]
  rw [← List.append_assoc] at stands
  exact wf.above further stands

/-- A path that is not refused for what it is, whatever stands in the tree. -/
def Passable (path : Path) : Prop :=
  Usable path ∧ ∀ name ∈ path.names, name.length ≤ nameLimit

theorem passable_of_resolve (resolved : tree.resolve follow path = .ok place) : Passable path := by
  obtain ⟨usable, walked⟩ := resolve_eq_ok.mp resolved
  exact ⟨usable, (walked_of_walk walked).short⟩

/-- A path through directories leads where its names do. -/
theorem Founded.resolve (founded : tree.Founded (path.start tree.here) path.names.dropLast)
    (passable : Passable path) (some : path.names ≠ [])
    : tree.resolve false path = .ok (path.names.foldl step (path.start tree.here)) := by
  obtain ⟨usable, short⟩ := passable
  have split := List.dropLast_concat_getLast some
  have shortFront : ∀ name ∈ path.names.dropLast, name.length ≤ nameLimit :=
    fun name member => short name (List.dropLast_subset _ member)
  refine (resolve_concat split.symm).mpr ⟨usable, _, _, founded.course linkLimit shortFront,
    founded _ (List.prefix_refl _), short _ (List.getLast_mem some), ?_⟩
  conv_lhs => rw [← split, List.foldl_append]
  rfl

/-- A file where a path leads through directories can be read. -/
theorem Founded.readFile {content : Bytes} {mode : Nat}
    (founded : tree.Founded (path.start tree.here) path.names.dropLast)
    (passable : Passable path) (some : path.names ≠ [])
    (stands
      : tree.get? (path.names.foldl step (path.start tree.here))
        = Option.some (.file content mode))
    : tree.readFile path = .ok content := by
  obtain ⟨usable, short⟩ := passable
  have split := List.dropLast_concat_getLast some
  have shortFront : ∀ name ∈ path.names.dropLast, name.length ≤ nameLimit :=
    fun name member => short name (List.dropLast_subset _ member)
  have course := founded.course linkLimit shortFront
  obtain ⟨mode', directory⟩ := founded _ (List.prefix_refl _)
  rw [← split, List.foldl_append] at stands
  refine readFile_eq_ok.mpr ⟨_, mode, resolve_eq_ok.mpr ⟨usable, ?_⟩, stands⟩
  have last : tree.Walked true linkLimit (path.names.dropLast.foldl step (path.start tree.here))
      [path.names.getLast some] _ :=
    .entered directory (short _ (List.getLast_mem some)) stands (by simp) (.arrived _ _)
  have walked := (course.walk (by simp)).mpr last.walk
  rwa [split] at walked

-----------------------------------------------------------------------------------------
-- Changes in a region
-----------------------------------------------------------------------------------------

/-- Outside of a region, all that stood has been kept, and what has come are directories at places at
which some may be made.
-/
structure Spares (region made : Place → Prop) (tree after : FileTree) : Prop where
  wellFormed : tree.WellFormed → after.WellFormed
  here : after.here = tree.here
  keeps
    : ∀ place entry,
        ¬ region place → tree.get? place = some entry → after.get? place = some entry
  adds
    : ∀ place entry,
        ¬ region place
        → tree.get? place = none
        → after.get? place = some entry
        → entry.isDirectory ∧ made place

variable {region more made allowed : Place → Prop}

theorem Spares.refl (region made : Place → Prop) (tree : FileTree) : Spares region made tree tree :=
  ⟨id, rfl, fun _ _ _ found => found, fun _ _ _ free found => by simp [free] at found⟩

theorem Spares.trans (first : Spares region made tree middle)
    (second : Spares region made middle after)
    : Spares region made tree after := by
  refine ⟨second.wellFormed ∘ first.wellFormed, second.here.trans first.here, ?_, ?_⟩
  · exact fun place entry outside found =>
      second.keeps _ _ outside (first.keeps _ _ outside found)
  · intro place entry outside free found
    cases between : middle.get? place with
    | none => exact second.adds _ _ outside between found
    | some other =>
        have same := second.keeps _ _ outside between
        obtain rfl := Option.some.inj (same.symm.trans found)
        exact first.adds _ _ outside free between

theorem Spares.mono (spares : Spares region made tree after)
    (wider : ∀ place, region place → more place)
    (allows : ∀ place, made place → ¬ more place → allowed place)
    : Spares more allowed tree after := by
  refine ⟨spares.wellFormed, spares.here, ?_, ?_⟩
  · exact fun place entry outside => spares.keeps place entry (outside ∘ wider place)
  · intro place entry outside free found
    obtain ⟨isDirectory, made⟩ := spares.adds place entry (outside ∘ wider place) free found
    exact ⟨isDirectory, allows place made outside⟩

/-- Where nothing may change and nothing may be made, all is as it was. -/
theorem Spares.get?_eq (spares : Spares region made tree after) (outside : ¬ region place)
    (unmade : ¬ made place)
    : after.get? place = tree.get? place := by
  cases before : tree.get? place with
  | some entry => exact spares.keeps _ _ outside before
  | none =>
      cases found : after.get? place with
      | none => rfl
      | some entry => exact absurd (spares.adds _ _ outside before found).2 unmade

/-- A way outside of the region has got no links. -/
theorem Spares.linkFree (spares : Spares region made tree after) (free : tree.LinkFree start way)
    (outside : ∀ front, front <+: way → ¬ region (front.foldl step start))
    : after.LinkFree start way := by
  intro front some isFront target link
  have apart := outside front isFront
  cases before : tree.get? (front.foldl step start) with
  | none => simpa [Entry.isDirectory] using (spares.adds _ _ apart before link).1
  | some entry =>
      have kept := spares.keeps _ _ apart before
      rw [link] at kept
      exact free front some isFront target (before.trans kept.symm)

theorem Created.spares (created : tree.Created path entry place after)
    (allowed : region place ∨ entry.isDirectory ∧ made place)
    : Spares region made tree after := by
  refine ⟨fun _ => created.wellFormed, created.here, ?_, ?_⟩
  · exact fun other found _ stands => created.keeps stands
  · intro other found outside free stands
    rw [created.get?_eq] at stands
    split at stands
    · rename_i same
      obtain rfl := Option.some.inj stands
      exact same ▸ allowed.resolve_left (same ▸ outside)
    · simp [free] at stands

/-- What is only changed in the region may be changed. -/
theorem spares_of_eq (wellFormed : after.WellFormed) (here : after.here = tree.here)
    (same : ∀ place, ¬ region place → after.get? place = tree.get? place)
    : Spares region made tree after := by
  refine ⟨fun _ => wellFormed, here, fun place entry outside found => ?_, ?_⟩
  · rw [same place outside, found]
  · intro place entry outside free found
    rw [same place outside, free] at found
    exact absurd found (by simp)

theorem Written.spares {content : Bytes} {mode : Nat}
    (written : tree.Written path place content mode after) (inside : region place)
    : Spares region made tree after := by
  refine spares_of_eq written.wellFormed written.here fun other outside => ?_
  rw [written.get?_eq, if_neg]
  rintro rfl
  exact outside inside

theorem Removed.spares (removed : tree.Removed place after)
    (inside : ∀ other, place <+: other → region other)
    : Spares region made tree after := by
  refine spares_of_eq removed.wellFormed removed.here fun other outside => ?_
  exact removed.get?_other (outside ∘ inside other)

theorem Moved.spares (moved : tree.Moved place goal after)
    (source : ∀ other, place <+: other → region other)
    (target : ∀ other, goal <+: other → region other)
    : Spares region made tree after := by
  refine spares_of_eq moved.wellFormed moved.here fun other outside => ?_
  exact moved.get?_other (outside ∘ target other) (outside ∘ source other)

/-- A tree without some places and what lies below them. -/
def without (tree : FileTree) (places : List Place) : FileTree :=
  places.foldl drop tree

/-- What stands in a tree without some places stands in the tree, and in none of these places: by
induction on them.
-/
theorem WellFormed.get?_without (wf : tree.WellFormed) {places : List Place}
    (below : ∀ spot ∈ places, spot ≠ []) (found : (tree.without places).get? place = some entry)
    : tree.get? place = some entry ∧ ∀ spot ∈ places, ¬ spot <+: place := by
  induction places generalizing tree with
  | nil => exact ⟨found, by simp⟩
  | cons spot places ih =>
      obtain ⟨belowFirst, belowOthers⟩ := List.forall_mem_cons.mp below
      obtain ⟨here, outside⟩ := ih (wf.drop spot) belowOthers found
      rw [List.forall_mem_cons]
      by_cases root : place = []
      · subst root
        exact ⟨by simpa using here, by simpa using belowFirst, outside⟩
      · rw [wf.get?_drop spot root] at here
        split at here
        · exact absurd here (by simp)
        · exact ⟨here, ‹_›, outside⟩

theorem here_without (tree : FileTree) (places : List Place)
    : (tree.without places).here = tree.here := by
  induction places generalizing tree with
  | nil => rfl
  | cons spot places ih => exact ih (tree.drop spot)

-----------------------------------------------------------------------------------------
-- Moves between known places
-----------------------------------------------------------------------------------------

/-- Moving between paths that lead to two places moves what stands at the one to the other. -/
theorem WellFormed.moved_between (wf : tree.WellFormed) {source target : Path}
    (renamed : tree.rename source target = .ok after)
    (leads : ∀ spot, tree.resolve false source = .ok spot → spot = place)
    (leads' : ∀ spot, tree.resolve false target = .ok spot → spot = goal) (other : place ≠ goal)
    : tree.Moved place goal after
      ∧ Passable source
      ∧ Passable target
      ∧ ∃ entry, tree.get? place = some entry := by
  obtain ⟨spot, entry, spot', resolved, found, resolvedGoal, moved⟩ := wf.rename renamed
  obtain rfl := leads _ resolved
  obtain rfl := leads' _ resolvedGoal
  obtain ⟨same, _⟩ | ⟨moved, _⟩ := moved
  · exact absurd same other
  · exact ⟨moved, passable_of_resolve resolved, passable_of_resolve resolvedGoal, entry, found⟩

/-- What stands at a place can be moved to another one at which nothing stands. -/
theorem rename_free {source target : Path} (resolved : tree.resolve false source = .ok place)
    (found : tree.get? place = some entry) (resolvedGoal : tree.resolve false target = .ok goal)
    (free : tree.get? goal = none) (outside : ¬ place <+: goal) (apart : ¬ goal <+: place)
    : ∃ after, tree.rename source target = .ok after := by
  have other : place ≠ goal := fun same => outside (same ▸ List.prefix_refl _)
  have looked := lookup_eq_ok.mpr ⟨resolved, found⟩
  refine ⟨tree.move place goal, ?_⟩
  simp [rename, looked, resolvedGoal, free, bind, Except.bind, pure, Except.pure, other,
    List.isPrefixOf_iff_prefix, outside, apart]

/-- A directory is made along a way without links at one of the places that the way passes. -/
theorem LinkFree.created_place {mode : Nat} (free : tree.LinkFree start way)
    (starts : path.start tree.here = start) (front : path.written <+: way)
    (created : tree.Created (closed path) (.directory mode) place after)
    : place = path.written.foldl step start := by
  obtain ⟨names, sameStart⟩ := Path.names_closed path
  have shorter : path.written.dropLast <+: way := (List.dropLast_prefix _).trans front
  have sameStart : (closed path).start tree.here = path.start tree.here := by
    rw [Path.start, Path.start, sameStart]
  exact (free.front shorter).resolve_eq (by simp) (sameStart.trans starts) names created.resolved

end FileTree

/-- Making directories along a way without links keeps all that stands, and adds nothing but
directories at places that the way passes.
-/
theorem Operation.Ends.spares_createDirectories {tree after : FileTree} {start : Place}
    {way : List Bytes} (wf : tree.WellFormed) (free : tree.LinkFree start way) {path : Path}
    (starts : path.isEmpty = false → path.start tree.here = start) (front : path.written <+: way)
    {answer : Except FileFault Unit}
    (ends : (Operation.createDirectories path).Ends tree answer after)
    : Spares (fun _ => False)
        (fun place => ∃ front, front <+: path.written ∧ place = front.foldl step start) tree
        after := by
  let holds (between : FileTree) : Prop :=
    between.WellFormed
    ∧ Spares (fun _ => False)
        (fun place => ∃ front, front <+: path.written ∧ place = front.foldl step start) tree between
  have kept : ∀ before after ancestor, ancestor ∈ path.ancestors → holds before →
      before.createDirectory ancestor = .ok after → holds after := by
    rintro before after ancestor above ⟨wf, spares⟩ made
    obtain ⟨place, created⟩ := wf.createDirectory made
    obtain ⟨nonempty, absolute⟩ :=
      Path.isAbsolute_of_front (Path.bytes_ancestor above) created.nonempty
    have starts : ancestor.start before.here = start := by
      rw [← starts nonempty, Path.start, Path.start, absolute, spares.here]
    have inner := Path.written_ancestor above
    have freeNow := spares.linkFree free (by simp)
    have place_eq := freeNow.created_place starts (inner.trans front) created
    exact ⟨created.wellFormed, spares.trans (created.spares (Or.inr ⟨rfl, _, inner, place_eq⟩))⟩
  have chained : ∀ chain, chain ⊆ path.ancestors → holds (tree.createChain chain).2 :=
    fun chain included => createChain_induction
      (fun before after ancestor listed => kept before after ancestor (included listed))
      ⟨wf, .refl ..⟩
  cases answer with
  | ok _ =>
      rw [← show (tree.createChain path.ancestors).2 = after from congrArg Prod.snd ends]
      exact (chained _ (List.Subset.refl _)).2
  | error _ =>
      obtain ⟨chain, suffix, rfl⟩ := ends
      exact (chained chain suffix.subset).2

end Vetting
