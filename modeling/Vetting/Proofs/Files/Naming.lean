import Vetting.Proofs.Files.Setup

/-! Trees in which everything has a name that leads to it from the directory in which it stands. No
walk leads to a place with another name, so edits leave such trees, and all trees that edits make of
the empty tree are of this kind.
-/

namespace Vetting

open FileTree

namespace Path

/-- What stands between slashes in a path has no slash and is not empty. -/
theorem written_proper {path : Path} {name : Bytes} (member : name ∈ path.written)
    : name ≠ [] ∧ slash ∉ name := by
  obtain ⟨listed, some⟩ := List.mem_filter.mp member
  exact ⟨by simpa using some, not_mem_of_mem_pieces listed⟩

theorem names_proper {path : Path} {name : Bytes} (member : name ∈ path.names)
    : name ≠ [] ∧ slash ∉ name := by
  rw [names_eq] at member
  split at member
  · rcases List.mem_append.mp member with member | last
    · exact written_proper member
    · rw [List.mem_singleton.mp last]
      decide
  · exact written_proper member

end Path

namespace FileTree

/-- The working directory and all entries have proper names. -/
structure Named (tree : FileTree) : Prop where
  here : ∀ name ∈ tree.here, Path.IsName name
  entries : ∀ e ∈ tree.entries, ∀ name ∈ e.1, Path.IsName name

variable {tree after : FileTree} {path : Path} {place : Place} {entry : Entry}

theorem named_empty : empty.Named := by
  have work : Path.IsName (Path.bytesOf "work") := Path.isName_of_length (by decide) (by decide)
  constructor <;> simpa [empty] using work

/-- A step adds at most a proper name to a place. -/
theorem named_step {name : Bytes} (named : ∀ name ∈ place, Path.IsName name)
    (proper : name ≠ [] ∧ Path.slash ∉ name)
    : ∀ other ∈ step place name, Path.IsName other := by
  unfold step
  split
  · exact named
  rename_i notDot
  split
  · exact fun other member => named other (List.dropLast_subset place member)
  rename_i notDotDot
  intro other member
  rcases List.mem_append.mp member with member | last
  · exact named other member
  · rw [List.mem_singleton.mp last]
    exact ⟨proper.1, proper.2, by simpa using notDot, by simpa using notDotDot⟩

/-- A walk from a place with proper names leads to such a place, by induction on the walk. -/
theorem Walked.named {follow : Bool} {links : Nat} {names : List Bytes} {goal : Place}
    (walked : tree.Walked follow links place names goal)
    (start : ∀ name ∈ place, Path.IsName name)
    (proper : ∀ name ∈ names, name ≠ [] ∧ Path.slash ∉ name)
    : ∀ name ∈ goal, Path.IsName name := by
  induction walked with
  | arrived => exact start
  | ended _ _ _ => exact named_step start (proper _ (by simp))
  | entered _ _ _ _ _ ih =>
      obtain ⟨first, others⟩ := List.forall_mem_cons.mp proper
      exact ih (named_step start first) others
  | @turned _ place _ rest target _ _ _ _ _ _ _ ih =>
      refine ih ?_ fun name member => ?_
      · unfold Path.start
        split
        · simp
        · exact start
      · rcases List.mem_append.mp member with member | member
        · exact Path.names_proper member
        · exact proper name (List.mem_cons_of_mem _ member)

/-- Paths lead to places with proper names. -/
theorem Named.resolve (named : tree.Named) {follow : Bool}
    (resolved : tree.resolve follow path = .ok place)
    : ∀ name ∈ place, Path.IsName name := by
  refine (walked_of_walk (resolve_eq_ok.mp resolved).2).named ?_ fun _ => Path.names_proper
  unfold Path.start
  split
  · simp
  · exact named.here

theorem Named.lookup (named : tree.Named) {follow : Bool}
    (found : tree.lookup follow path = .ok (place, entry))
    : ∀ name ∈ place, Path.IsName name :=
  named.resolve (lookup_eq_ok.mp found).1

/-- What stands somewhere has proper names. -/
theorem Named.get? (named : tree.Named) (found : tree.get? place = some entry)
    : ∀ name ∈ place, Path.IsName name := by
  by_cases below : place = []
  · simp [below]
  · exact named.entries _ (mem_of_get? below found)

-----------------------------------------------------------------------------------------
-- Changes
-----------------------------------------------------------------------------------------

theorem Named.put (named : tree.Named) (proper : ∀ name ∈ place, Path.IsName name) (entry : Entry)
    : (tree.put place entry).Named := by
  refine ⟨by simpa using named.here, fun e member => ?_⟩
  unfold FileTree.put at member
  split at member
  · obtain ⟨listed, known, rfl⟩ := List.mem_map.mp member
    split
    · exact proper
    · exact named.entries listed known
  · rcases List.mem_append.mp member with known | new
    · exact named.entries e known
    · rw [List.mem_singleton.mp new]
      exact proper

theorem Named.drop (named : tree.Named) (place : Place) : (tree.drop place).Named :=
  ⟨named.here, fun e member => named.entries e (List.mem_filter.mp member).1⟩

theorem Named.create (named : tree.Named) (created : tree.create path entry = .ok after)
    : after.Named := by
  obtain ⟨place, resolved, created⟩ := Except.bind_eq_ok.mp created
  split at created
  · exact absurd created Except.throw_ne_ok
  · obtain rfl := Except.ok.inj created
    exact named.put (named.resolve resolved) entry

theorem Named.createChain (named : tree.Named) (chain : List Path)
    : (tree.createChain chain).2.Named :=
  createChain_induction (fun _ _ _ _ named made => named.create made) named

theorem Named.writeFile (named : tree.Named) {content : Bytes}
    (wrote : tree.writeFile path content = .ok after)
    : after.Named := by
  obtain ⟨place, resolved, wrote⟩ := Except.bind_eq_ok.mp wrote
  split at wrote
  · exact absurd wrote Except.throw_ne_ok
  · obtain rfl := Except.ok.inj wrote
    exact named.put (named.resolve resolved) _
  · exact absurd wrote Except.throw_ne_ok
  · obtain rfl := Except.ok.inj wrote
    exact named.put (named.resolve resolved) _

theorem Named.setMode (named : tree.Named) {mode : Nat} (set : tree.setMode path mode = .ok after)
    : after.Named := by
  obtain ⟨⟨place, entry⟩, found, set⟩ := Except.bind_eq_ok.mp set
  obtain rfl := Except.ok.inj set
  exact named.put (named.lookup found) _

theorem Named.remove (named : tree.Named) (removed : tree.remove path = .ok after)
    : after.Named := by
  obtain ⟨⟨place, entry⟩, _, removed⟩ := Except.bind_eq_ok.mp removed
  obtain rfl := Except.ok.inj removed
  exact named.drop place

end FileTree

namespace Edit

variable {tree after : FileTree} {path : Path}

theorem named_makeDirectories (named : tree.Named) (made : makeDirectories tree path = .ok after)
    : after.Named := by
  have grown : (tree.createDirectories path).2.Named := named.createChain path.ancestors
  unfold makeDirectories at made
  split at made
  · rename_i result
    rw [result] at grown
    exact Except.ok.inj made ▸ grown
  · exact absurd made (by simp)

theorem named_makeParents (named : tree.Named) (made : makeParents tree path = .ok after)
    : after.Named := by
  unfold makeParents at made
  split at made
  · exact named_makeDirectories named made
  · exact Except.ok.inj made ▸ named

theorem named_setMode? (named : tree.Named) {mode : Option Nat}
    (set : setMode? tree path mode = .ok after)
    : after.Named := by
  cases mode with
  | none => exact Except.ok.inj set ▸ named
  | some mode => exact named.setMode set

/-- An edit leaves proper names, by cases on the edit. -/
theorem named_apply (named : tree.Named) {edit : Edit} (applied : edit.apply tree = .ok after)
    : after.Named := by
  cases edit with
  | write path content mode =>
      obtain ⟨first, made, applied⟩ := Except.bind_eq_ok.mp applied
      obtain ⟨second, wrote, set⟩ := Except.bind_eq_ok.mp applied
      exact named_setMode? ((named_makeParents named made).writeFile wrote) set
  | makeDirectory path mode =>
      obtain ⟨first, made, set⟩ := Except.bind_eq_ok.mp applied
      exact named_setMode? (named_makeDirectories named made) set
  | makeLink path target =>
      obtain ⟨first, made, created⟩ := Except.bind_eq_ok.mp applied
      exact (named_makeParents named made).create created
  | makeSpecial path =>
      obtain ⟨first, made, created⟩ := Except.bind_eq_ok.mp applied
      exact (named_makeParents named made).create created
  | remove path => exact named.remove applied
  | setMode path mode => exact named.setMode applied

/-- Edits leave proper names, by induction on them. -/
theorem named_applyAll (named : tree.Named) {edits : List Edit}
    (applied : applyAll tree edits = .ok after)
    : after.Named := by
  induction edits generalizing tree with
  | nil => exact Except.ok.inj applied ▸ named
  | cons edit rest ih =>
      obtain ⟨next, first, onward⟩ := Except.bind_eq_ok.mp applied
      exact ih (named_apply named first) onward

end Edit

end Vetting
