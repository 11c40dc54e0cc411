import Mathlib.Data.List.Nodup
import Vetting.Files.Change

/-! What stands where once the entries of a tree have been changed: an entry put at a place, a place
dropped, a place moved. Trees in which every entry lies in a directory stay so.
-/

namespace Vetting.FileTree

/-- Every place is listed once, below the root, and lies in a directory. -/
structure WellFormed (tree : FileTree) : Prop where
  unique : (tree.entries.map Prod.fst).Nodup
  belowRoot : ∀ e ∈ tree.entries, e.1 ≠ []
  grounded
    : ∀ e ∈ tree.entries,
        e.1.dropLast = [] ∨ ∃ mode, (e.1.dropLast, Entry.directory mode) ∈ tree.entries

-----------------------------------------------------------------------------------------
-- Looking entries up
-----------------------------------------------------------------------------------------

@[simp] theorem get?_nil (tree : FileTree)
    : tree.get? [] = some (.directory Entry.directoryMode) := rfl

theorem get?_of_ne_nil (tree : FileTree) {place : Place} (below : place ≠ [])
    : tree.get? place = (tree.entries.find? fun e => e.1 == place).map Prod.snd := by
  simp [get?, below]

/-- Below the root, what is found at a place is listed with it. -/
theorem mem_of_get? {tree : FileTree} {place : Place} {entry : Entry} (below : place ≠ [])
    (found : tree.get? place = some entry)
    : (place, entry) ∈ tree.entries := by
  rw [get?_of_ne_nil tree below] at found
  obtain ⟨⟨listed, _⟩, search, rfl⟩ := Option.map_eq_some_iff.mp found
  have same : listed = place := by simpa using List.find?_some search
  exact same ▸ List.mem_of_find?_eq_some search

/-- What is listed with a place is found there, as no place is listed twice. -/
theorem WellFormed.get?_of_mem {tree : FileTree} (wf : tree.WellFormed) {place : Place}
    {entry : Entry} (listed : (place, entry) ∈ tree.entries)
    : tree.get? place = some entry := by
  rw [get?_of_ne_nil tree (wf.belowRoot _ listed)]
  cases search : tree.entries.find? fun e => e.1 == place with
  | none => simpa using List.find?_eq_none.mp search _ listed
  | some found =>
      have same : found.1 = place := by simpa using List.find?_some search
      have : found = (place, entry) :=
        List.inj_on_of_nodup_map wf.unique (List.mem_of_find?_eq_some search) listed same
      simp [this]

theorem WellFormed.get?_eq_some_iff {tree : FileTree} (wf : tree.WellFormed) {place : Place}
    (below : place ≠ []) {entry : Entry}
    : tree.get? place = some entry ↔ (place, entry) ∈ tree.entries :=
  ⟨mem_of_get? below, wf.get?_of_mem⟩

/-- Something stands at a place only in a directory. -/
theorem WellFormed.parent {tree : FileTree} (wf : tree.WellFormed) {place : Place}
    {entry : Entry} (below : place ≠ []) (found : tree.get? place = some entry)
    : ∃ mode, tree.get? place.dropLast = some (.directory mode) := by
  rcases wf.grounded _ (mem_of_get? below found) with root | ⟨mode, listed⟩
  · exact ⟨_, by rw [show place.dropLast = [] from root, get?_nil]⟩
  · exact ⟨mode, wf.get?_of_mem listed⟩

/-- Something stands below a place only when that is a directory, by induction on the way down. -/
theorem WellFormed.above {tree : FileTree} (wf : tree.WellFormed) {place way : Place}
    {entry : Entry} (further : way ≠ []) (found : tree.get? (place ++ way) = some entry)
    : ∃ mode, tree.get? place = some (.directory mode) := by
  induction way generalizing place entry with
  | nil => exact absurd rfl further
  | cons name rest ih =>
      have first : ∃ entry, tree.get? (place ++ [name]) = some entry := by
        cases rest with
        | nil => exact ⟨entry, found⟩
        | cons next others =>
            have deeper : tree.get? ((place ++ [name]) ++ next :: others) = some entry := by
              simpa using found
            obtain ⟨mode, directory⟩ := ih (by simp) deeper
            exact ⟨_, directory⟩
      obtain ⟨entry, found⟩ := first
      simpa using wf.parent (by simp) found

/-- Nothing stands below what is no directory. -/
theorem WellFormed.below_none {tree : FileTree} (wf : tree.WellFormed) {place way : Place}
    (further : way ≠ []) (noDirectory : ∀ mode, tree.get? place ≠ some (.directory mode))
    : tree.get? (place ++ way) = none := by
  cases found : tree.get? (place ++ way) with
  | none => rfl
  | some entry =>
      obtain ⟨mode, directory⟩ := wf.above further found
      exact absurd directory (noDirectory mode)

theorem nameIn?_eq_some {directory place : Place} {name : Bytes}
    : nameIn? directory place = some name ↔ place = directory ++ [name] := by
  unfold nameIn?
  constructor
  · intro named
    split at named
    · rename_i inside
      obtain ⟨way, rfl⟩ := List.isPrefixOf_iff_prefix.mp inside
      rw [List.drop_left] at named
      split at named
      · obtain rfl := Option.some.inj named
        rfl
      · exact absurd named (by simp)
    · exact absurd named (by simp)
  · rintro rfl
    simp

/-- What stands in a directory is found there under its name. -/
theorem WellFormed.mem_children {tree : FileTree} (wf : tree.WellFormed) {directory : Place}
    {name : Bytes} {entry : Entry}
    : (name, entry) ∈ tree.children directory ↔ tree.get? (directory ++ [name]) = some entry := by
  rw [wf.get?_eq_some_iff (by simp)]
  simp only [children, List.mem_filterMap, Option.map_eq_some_iff, Prod.mk.injEq]
  constructor
  · rintro ⟨e, listed, other, named, rfl, rfl⟩
    rwa [← nameIn?_eq_some.mp named]
  · exact fun listed => ⟨_, listed, name, nameIn?_eq_some.mpr rfl, rfl, rfl⟩

/-- A name occurs in a tree when it is on the way to an entry or along the path of a link. -/
theorem WellFormed.mem_names {tree : FileTree} (wf : tree.WellFormed) {name : Bytes}
    : name ∈ tree.names
      ↔ ∃ place entry,
          place ≠ []
          ∧ tree.get? place = some entry
          ∧ (name ∈ place ∨ name ∈ entry.linkNames) := by
  simp only [names, List.mem_flatMap, List.mem_append]
  constructor
  · intro ⟨⟨place, entry⟩, listed, inside⟩
    exact ⟨place, entry, wf.belowRoot _ listed, wf.get?_of_mem listed, inside⟩
  · intro ⟨place, entry, below, found, inside⟩
    exact ⟨(place, entry), mem_of_get? below found, inside⟩

-----------------------------------------------------------------------------------------
-- Putting an entry at a place
-----------------------------------------------------------------------------------------

@[simp] theorem here_put (tree : FileTree) (place : Place) (entry : Entry)
    : (tree.put place entry).here = tree.here := by
  unfold put
  split <;> rfl

/-- An entry is listed for the place it is put at, and no other one. -/
theorem mem_put (tree : FileTree) {place : Place} (below : place ≠ []) (entry : Entry)
    (other : Place) (found : Entry)
    : (other, found) ∈ (tree.put place entry).entries
      ↔ if other = place then found = entry else (other, found) ∈ tree.entries := by
  unfold put
  split
  · rename_i occupied
    obtain ⟨old, occupied⟩ := Option.isSome_iff_exists.mp occupied
    have listed := mem_of_get? below occupied
    simp only [List.mem_map, beq_iff_eq]
    constructor
    · rintro ⟨e, member, eq⟩
      split at eq
      · obtain ⟨rfl, rfl⟩ := Prod.mk.inj eq
        simp
      · subst eq
        simp [*]
    · split
      · rintro rfl
        exact ⟨_, listed, by simp [*]⟩
      · exact fun member => ⟨_, member, by simp [*]⟩
  · rename_i free
    simp only [List.mem_append, List.mem_singleton, Prod.mk.injEq]
    split
    · rename_i same
      subst same
      simp only [true_and, or_iff_right_iff_imp]
      intro member
      have hit : (tree.entries.find? fun e => e.1 == other).isSome :=
        List.find?_isSome.mpr ⟨_, member, by simp⟩
      simp [get?_of_ne_nil tree below, hit] at free
    · simp [*]

/-- Putting an entry into a directory keeps a tree well formed, as long as nothing comes to stand
below what is no directory.
-/
theorem WellFormed.put {tree : FileTree} (wf : tree.WellFormed) {place : Place}
    {entry : Entry} (below : place ≠ [])
    (directory : ∃ mode, tree.get? place.dropLast = some (.directory mode))
    (childless : entry.isDirectory ∨ ∀ name, tree.get? (place ++ [name]) = none)
    : (tree.put place entry).WellFormed := by
  have keys : (tree.put place entry).entries.map Prod.fst
      = if (tree.get? place).isSome then tree.entries.map Prod.fst
        else tree.entries.map Prod.fst ++ [place] := by
    unfold FileTree.put
    split
    · simp only [List.map_map]
      apply List.map_congr_left
      intro e _
      by_cases eq : e.1 = place <;> simp [eq]
    · simp
  have shorter : place.dropLast ≠ place := by
    intro same
    have := congrArg List.length same
    have := List.length_pos_of_ne_nil below
    simp only [List.length_dropLast] at *
    omega
  refine ⟨?_, ?_, ?_⟩
  · rw [keys]
    split
    · exact wf.unique
    · rename_i free
      refine List.nodup_append.mpr ⟨wf.unique, by simp, ?_⟩
      intro other member last same eq
      obtain ⟨e, listed, rfl⟩ := List.mem_map.mp member
      rw [List.mem_singleton] at same
      exact free (by simp [← same, ← eq, wf.get?_of_mem listed])
  · rintro ⟨other, found⟩ member
    rw [mem_put tree below] at member
    split at member
    · simp [*]
    · exact wf.belowRoot _ member
  · rintro ⟨other, found⟩ member
    simp only [mem_put tree below] at member ⊢
    split at member
    · rename_i same
      subst same
      obtain ⟨mode, directory⟩ := directory
      by_cases root : other.dropLast = []
      · exact Or.inl root
      · exact Or.inr ⟨mode, by simp [shorter, mem_of_get? root directory]⟩
    · rcases wf.grounded _ member with root | ⟨mode, parent⟩
      · exact Or.inl root
      · by_cases same : other.dropLast = place
        · rcases childless with isDirectory | empty
          · cases entry <;> simp_all [Entry.isDirectory]
          · have split : other = place ++ [other.getLast (wf.belowRoot _ member)] := by
              rw [← same, List.dropLast_concat_getLast]
            have found := wf.get?_of_mem member
            rw [split, empty] at found
            exact absurd found (by simp)
        · exact Or.inr ⟨mode, by simpa [same] using parent⟩

/-- The entry put at a place is found there, and all else stays. -/
theorem WellFormed.get?_put {tree : FileTree} {place : Place} {entry : Entry}
    (wf : tree.WellFormed) (after : (tree.put place entry).WellFormed) (below : place ≠ [])
    (other : Place)
    : (tree.put place entry).get? other
      = if other = place then some entry else tree.get? other := by
  by_cases root : other = []
  · simp [root, Ne.symm below]
  apply Option.ext
  intro found
  rw [after.get?_eq_some_iff root, mem_put tree below]
  split
  · simp [eq_comm]
  · rw [wf.get?_eq_some_iff root]

-----------------------------------------------------------------------------------------
-- Dropping a place with everything below it
-----------------------------------------------------------------------------------------

@[simp] theorem here_drop (tree : FileTree) (place : Place)
    : (tree.drop place).here = tree.here := rfl

theorem mem_drop (tree : FileTree) (place : Place) (e : Place × Entry)
    : e ∈ (tree.drop place).entries ↔ e ∈ tree.entries ∧ ¬ place <+: e.1 := by
  simp only [drop, List.mem_filter, Bool.not_eq_true', ← Bool.not_eq_true,
    List.isPrefixOf_iff_prefix]

theorem WellFormed.drop {tree : FileTree} (wf : tree.WellFormed) (place : Place)
    : (tree.drop place).WellFormed := by
  refine ⟨wf.unique.sublist (List.filter_sublist.map _), ?_, ?_⟩
  · exact fun e member => wf.belowRoot e ((mem_drop _ _ _).mp member).1
  · intro e member
    obtain ⟨member, kept⟩ := (mem_drop _ _ _).mp member
    refine (wf.grounded e member).imp_right fun ⟨mode, parent⟩ => ⟨mode, ?_⟩
    exact (mem_drop _ _ _).mpr
      ⟨parent, fun gone => kept (gone.trans (List.dropLast_prefix _))⟩

/-- A place and what lies below it is gone, and all else stays. -/
theorem WellFormed.get?_drop {tree : FileTree} (wf : tree.WellFormed) (place : Place)
    {other : Place} (below : other ≠ [])
    : (tree.drop place).get? other
      = if place <+: other then none else tree.get? other := by
  apply Option.ext
  intro found
  rw [(wf.drop place).get?_eq_some_iff below, mem_drop]
  split
  · simp [*]
  · simp [*, wf.get?_eq_some_iff below]

-----------------------------------------------------------------------------------------
-- Moving a place with everything below it
-----------------------------------------------------------------------------------------

@[simp] theorem here_move (tree : FileTree) (source target : Place)
    : (tree.move source target).here = tree.here := rfl

theorem mem_move (tree : FileTree) (source target other : Place) (entry : Entry)
    : (other, entry) ∈ (tree.move source target).entries
      ↔ (∃ way, other = target ++ way ∧ (source ++ way, entry) ∈ tree.entries)
        ∨ (¬ source <+: other ∧ (other, entry) ∈ tree.entries) := by
  simp only [move, List.mem_map, List.isPrefixOf_iff_prefix]
  constructor
  · rintro ⟨⟨place, found⟩, member, eq⟩
    split at eq
    · rename_i inside
      obtain ⟨way, rfl⟩ := inside
      obtain ⟨rfl, rfl⟩ := Prod.mk.inj eq
      exact Or.inl ⟨way, by simp, member⟩
    · obtain ⟨rfl, rfl⟩ := Prod.mk.inj eq
      exact Or.inr ⟨‹_›, member⟩
  · rintro (⟨way, rfl, member⟩ | ⟨outside, member⟩)
    · exact ⟨_, member, by simp⟩
    · exact ⟨_, member, by simp [outside]⟩

/-- Where something may be moved to: a place in a directory outside of what is moved, at which
nothing stands.
-/
structure Free (tree : FileTree) (source target : Place) : Prop where
  belowRoot : target ≠ []
  directory : ∃ mode, tree.get? target.dropLast = some (.directory mode)
  outside : ¬ source <+: target
  empty : tree.get? target = none

theorem WellFormed.free_none {tree : FileTree} (wf : tree.WellFormed) {source target : Place}
    (free : tree.Free source target) (way : Place) (entry : Entry)
    : (target ++ way, entry) ∉ tree.entries := by
  intro member
  have found := wf.get?_of_mem member
  by_cases here : way = []
  · simp [here, free.empty] at found
  · rw [wf.below_none here (by simp [free.empty])] at found
    exact absurd found (by simp)

theorem WellFormed.move {tree : FileTree} (wf : tree.WellFormed) {source target : Place}
    (free : tree.Free source target)
    : (tree.move source target).WellFormed := by
  have listed : ∀ e ∈ (tree.move source target).entries,
      (∃ way, e.1 = target ++ way ∧ (source ++ way, e.2) ∈ tree.entries)
        ∨ (¬ source <+: e.1 ∧ e ∈ tree.entries) :=
    fun e member => (mem_move tree source target e.1 e.2).mp member
  refine ⟨?_, ?_, ?_⟩
  · simp only [FileTree.move, List.map_map]
    refine List.Nodup.map_on ?_ (List.Nodup.of_map _ wf.unique)
    rintro ⟨place, entry⟩ member ⟨other, found⟩ otherMember eq
    have same : ∀ {p : Place}, p = place → p = other → (place, entry) = (other, found) :=
      fun hp ho => List.inj_on_of_nodup_map wf.unique member otherMember (hp.symm.trans ho)
    simp only [Function.comp_apply, List.isPrefixOf_iff_prefix] at eq
    split at eq <;> split at eq
    · rename_i inside otherInside
      obtain ⟨way, rfl⟩ := inside
      obtain ⟨otherWay, rfl⟩ := otherInside
      exact same rfl (by simpa using eq)
    · subst eq
      exact absurd otherMember (wf.free_none free _ _)
    · subst eq
      exact absurd member (wf.free_none free _ _)
    · exact same rfl eq
  · intro e member
    rcases listed e member with ⟨way, eq, _⟩ | ⟨_, member⟩
    · simp [eq, free.belowRoot]
    · exact wf.belowRoot e member
  · rintro ⟨other, found⟩ member
    simp only [mem_move] at member ⊢
    rcases member with ⟨way, rfl, member⟩ | ⟨outside, member⟩
    · by_cases here : way = []
      · subst here
        obtain ⟨mode, directory⟩ := free.directory
        by_cases root : target.dropLast = []
        · exact Or.inl (by simpa using root)
        · refine Or.inr ⟨mode, Or.inr ?_⟩
          rw [List.append_nil]
          exact ⟨fun inside => free.outside (inside.trans (List.dropLast_prefix _)),
            mem_of_get? root directory⟩
      · rcases wf.grounded _ member with root | ⟨mode, parent⟩
        · rw [show (source ++ way, found).1 = source ++ way from rfl,
            List.dropLast_append_of_ne_nil here, List.append_eq_nil_iff] at root
          exact absurd (root.1 ▸ List.nil_prefix) free.outside
        · refine Or.inr ⟨mode, Or.inl ⟨way.dropLast, ?_, ?_⟩⟩
          · rw [List.dropLast_append_of_ne_nil here]
          · rwa [List.dropLast_append_of_ne_nil here] at parent
    · rcases wf.grounded _ member with root | ⟨mode, parent⟩
      · exact Or.inl root
      · refine Or.inr ⟨mode, Or.inr ⟨?_, parent⟩⟩
        exact fun inside => outside (inside.trans (List.dropLast_prefix _))

/-- What stood at and below a place stands at and below the other one, and all else stays. -/
theorem WellFormed.get?_move {tree : FileTree} (wf : tree.WellFormed) {source target : Place}
    (free : tree.Free source target) (other : Place)
    : (tree.move source target).get? other
      = if target <+: other then tree.get? (source ++ other.drop target.length)
        else if source <+: other then none
        else tree.get? other := by
  have sourceBelow : source ≠ [] := fun root => free.outside (root ▸ List.nil_prefix)
  by_cases root : other = []
  · simp [root, free.belowRoot, sourceBelow]
  apply Option.ext
  intro found
  rw [(wf.move free).get?_eq_some_iff root, mem_move]
  split
  · rename_i inside
    obtain ⟨way, rfl⟩ := inside
    simp only [List.append_cancel_left_eq, exists_eq_left', wf.free_none free, and_false,
      or_false, List.drop_left]
    rw [wf.get?_eq_some_iff (by simp [sourceBelow])]
  · rename_i outside
    have elsewhere : ∀ way, other ≠ target ++ way := by
      rintro way rfl
      exact outside (List.prefix_append _ _)
    split
    · simp [*]
    · simp [*, wf.get?_eq_some_iff root]

end Vetting.FileTree
