import Vetting.Files.Edit
import Vetting.Proofs.Files.Relocation
import Vetting.Proofs.Results

/-! Trees that are set up by edits: from a well formed tree, every edit that can be applied leaves a
well formed tree, so all trees that edits make of the empty tree are well formed.
-/

namespace Vetting

open FileTree

namespace FileTree

theorem wellFormed_empty : empty.WellFormed := by
  refine ⟨?_, ?_, ?_⟩ <;> simp [empty]

/-- Nothing is put at the root, which is always a directory. -/
theorem WellFormed.put_nil {tree : FileTree} (wf : tree.WellFormed) (entry : Entry)
    : tree.put [] entry = tree := by
  have kept : ∀ e ∈ tree.entries, (if e.1 == [] then ([], entry) else e) = e := by
    intro e member
    rw [if_neg (by simpa using wf.belowRoot e member)]
  unfold FileTree.put
  rw [get?_nil, Option.isSome_some, if_pos rfl, List.map_congr_left kept, List.map_id'']
  exact fun _ => rfl

theorem isDirectory_withMode (mode : Nat) (entry : Entry)
    : (entry.withMode mode).isDirectory = entry.isDirectory := by
  cases entry <;> rfl

/-- Other permissions do not make a directory of an entry, or of a directory something else. -/
theorem WellFormed.setMode {tree after : FileTree} (wf : tree.WellFormed) {path : Path}
    {mode : Nat} (set : tree.setMode path mode = .ok after)
    : after.WellFormed := by
  unfold FileTree.setMode at set
  cases found : tree.lookup true path with
  | error fault => simp [found, bind, Except.bind] at set
  | ok stood =>
      obtain ⟨place, entry⟩ := stood
      simp only [found, bind, Except.bind, pure, Except.pure, Except.ok.injEq] at set
      obtain rfl := set
      obtain ⟨_, stands⟩ := lookup_eq_ok.mp found
      by_cases root : place = []
      · rw [root, wf.put_nil]
        exact wf
      · refine wf.put root (wf.parent root stands) ?_
        rw [isDirectory_withMode]
        cases isDirectory : entry.isDirectory with
        | true => exact Or.inl rfl
        | false =>
            refine Or.inr fun name => wf.below_none (by simp) fun mode found => ?_
            rw [stands] at found
            simp [Option.some.inj found, Entry.isDirectory] at isDirectory

theorem WellFormed.remove {tree after : FileTree} (wf : tree.WellFormed) {path : Path}
    (removed : tree.remove path = .ok after)
    : after.WellFormed := by
  unfold FileTree.remove at removed
  cases found : tree.lookup false path with
  | error fault => simp [found, bind, Except.bind] at removed
  | ok stood =>
      simp only [found, bind, Except.bind, pure, Except.pure, Except.ok.injEq] at removed
      exact removed ▸ wf.drop stood.1

end FileTree

namespace Edit

variable {tree after : FileTree}

theorem wellFormed_makeDirectories (wf : tree.WellFormed) {path : Path}
    (made : makeDirectories tree path = .ok after)
    : after.WellFormed := by
  have grown : (tree.createDirectories path).2.WellFormed := (wf.createChain path.ancestors).1
  unfold makeDirectories at made
  cases result : tree.createDirectories path with
  | mk answer left =>
      rw [result] at made grown
      cases answer with
      | ok _ => exact Except.ok.inj made ▸ grown
      | error fault => exact absurd made (by simp)

theorem wellFormed_makeParents (wf : tree.WellFormed) {path : Path}
    (made : makeParents tree path = .ok after)
    : after.WellFormed := by
  unfold makeParents at made
  cases parent : path.parent? with
  | none =>
      rw [parent] at made
      exact Except.ok.inj made ▸ wf
  | some directory =>
      rw [parent] at made
      exact wellFormed_makeDirectories wf made

theorem wellFormed_setMode? (wf : tree.WellFormed) {path : Path} {mode : Option Nat}
    (set : setMode? tree path mode = .ok after)
    : after.WellFormed := by
  cases mode with
  | none => exact Except.ok.inj set ▸ wf
  | some mode => exact wf.setMode set

/-- An edit keeps a tree well formed, by cases on the edit. -/
theorem wellFormed_apply (wf : tree.WellFormed) {edit : Edit} (applied : edit.apply tree = .ok after)
    : after.WellFormed := by
  cases edit with
  | write path content mode =>
      obtain ⟨first, made, applied⟩ := Except.bind_eq_ok.mp applied
      obtain ⟨second, wrote, set⟩ := Except.bind_eq_ok.mp applied
      obtain ⟨_, _, written⟩ := (wellFormed_makeParents wf made).writeFile wrote
      exact wellFormed_setMode? written.wellFormed set
  | makeDirectory path mode =>
      obtain ⟨first, made, set⟩ := Except.bind_eq_ok.mp applied
      exact wellFormed_setMode? (wellFormed_makeDirectories wf made) set
  | makeLink path target =>
      obtain ⟨first, made, created⟩ := Except.bind_eq_ok.mp applied
      obtain ⟨_, created⟩ := (wellFormed_makeParents wf made).create created
      exact created.wellFormed
  | makeSpecial path =>
      obtain ⟨first, made, created⟩ := Except.bind_eq_ok.mp applied
      obtain ⟨_, created⟩ := (wellFormed_makeParents wf made).create created
      exact created.wellFormed
  | remove path => exact wf.remove applied
  | setMode path mode => exact wf.setMode applied

/-- Edits keep a tree well formed, by induction on them. -/
theorem wellFormed_applyAll (wf : tree.WellFormed) {edits : List Edit}
    (applied : applyAll tree edits = .ok after)
    : after.WellFormed := by
  induction edits generalizing tree with
  | nil => exact Except.ok.inj applied ▸ wf
  | cons edit rest ih =>
      obtain ⟨next, first, onward⟩ := Except.bind_eq_ok.mp applied
      exact ih (wellFormed_apply wf first) onward

end Edit

end Vetting
