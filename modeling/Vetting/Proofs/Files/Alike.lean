import Vetting.Proofs.Files.Growth
import Vetting.Proofs.Results

/-! Trees that differ at most in what their files hold. A path leads to the same place in both, as what
a file holds is on no way, and an entry is moved in the one exactly when it is moved in the other.
-/

namespace Vetting

/-- An entry apart from what is in it. -/
def Entry.hollow : Entry → Entry
  | .file _ mode => .file [] mode
  | entry => entry

@[simp] theorem Entry.isDirectory_hollow (entry : Entry)
    : entry.hollow.isDirectory = entry.isDirectory := by
  cases entry <;> rfl

namespace FileTree

/-- The same stands at every place of two trees, apart from what files hold. -/
structure Alike (tree other : FileTree) : Prop where
  here : other.here = tree.here
  entries : ∀ place, (other.get? place).map Entry.hollow = (tree.get? place).map Entry.hollow

variable {tree other : FileTree} {follow : Bool} {path source target : Path}

/-- A walk looks at entries, and not at what is in them. -/
theorem walk_cons_hollow (tree : FileTree) (follow : Bool) (links : Nat) (place : Place)
    (name : Bytes) (rest : List Bytes)
    : tree.walk follow links place (name :: rest)
      = match (tree.get? place).map Entry.hollow with
        | none => .error .missing
        | some (.directory _) =>
            if nameLimit < name.length then .error .nameTooLong
            else
              match (tree.get? (step place name)).map Entry.hollow with
              | some (.link target) =>
                  if rest.isEmpty && !follow then .ok (step place name)
                  else
                    match links with
                    | 0 => .error .tooManyLinks
                    | left + 1 => tree.walk follow left (target.start place) (target.names ++ rest)
              | some _ => tree.walk follow links (step place name) rest
              | none => if rest.isEmpty then .ok (step place name) else .error .missing
        | some _ => .error .notDirectory := by
  rw [walk_cons_eq]
  cases tree.get? place with
  | none => rfl
  | some entry =>
      cases entry with
      | directory mode =>
          cases tree.get? (step place name) with
          | none => rfl
          | some entry => cases entry <;> rfl
      | file | link | special => rfl

/-- Walks through trees that are alike are the same, by induction on the links that may be followed and
on the names.
-/
theorem Alike.walk_eq (alike : tree.Alike other) (follow : Bool) (links : Nat) (place : Place)
    (way : List Bytes)
    : other.walk follow links place way = tree.walk follow links place way := by
  induction links generalizing place way with
  | zero =>
      induction way generalizing place with
      | nil => simp
      | cons name rest ih => simp only [walk_cons_hollow, alike.entries, ih]
  | succ left outer =>
      induction way generalizing place with
      | nil => simp
      | cons name rest ih => simp only [walk_cons_hollow, alike.entries, ih, outer]

theorem Alike.resolve_eq (alike : tree.Alike other) (follow : Bool) (path : Path)
    : other.resolve follow path = tree.resolve follow path := by
  simp only [resolve, alike.here, alike.walk_eq]

/-- Something stands at a place of both trees or of none. -/
theorem Alike.get?_cases (alike : tree.Alike other) (place : Place)
    : tree.get? place = none ∧ other.get? place = none
      ∨ ∃ entry same,
          tree.get? place = some entry
          ∧ other.get? place = some same
          ∧ same.isDirectory = entry.isDirectory := by
  have entries := alike.entries place
  cases found : tree.get? place with
  | none =>
      rw [found, Option.map_none, Option.map_eq_none_iff] at entries
      exact Or.inl ⟨rfl, entries⟩
  | some entry =>
      rw [found, Option.map_some, Option.map_eq_some_iff] at entries
      obtain ⟨same, stands, hollow⟩ := entries
      refine Or.inr ⟨entry, same, rfl, stands, ?_⟩
      rw [← Entry.isDirectory_hollow same, hollow, Entry.isDirectory_hollow]

/-- A path leads to something in both trees, at the same place, or fails in both for the same reason. -/
theorem Alike.lookup_cases (alike : tree.Alike other) (follow : Bool) (path : Path)
    : (∃ fault, tree.lookup follow path = .error fault ∧ other.lookup follow path = .error fault)
      ∨ ∃ place entry same,
          tree.lookup follow path = .ok (place, entry)
          ∧ other.lookup follow path = .ok (place, same)
          ∧ same.isDirectory = entry.isDirectory := by
  unfold lookup
  rw [alike.resolve_eq]
  cases tree.resolve follow path with
  | error fault => exact Or.inl ⟨fault, rfl, rfl⟩
  | ok place =>
      rcases alike.get?_cases place with ⟨free, free'⟩ | ⟨entry, same, stands, stands', kind⟩
      · exact Or.inl ⟨.missing, by simp [Except.ok_bind, free, free']; rfl⟩
      · rw [Except.ok_bind, Except.ok_bind, stands, stands']
        exact Or.inr ⟨place, entry, same, rfl, rfl, kind⟩

/-- A directory is empty in both trees or in none. -/
theorem Alike.isEmpty_children (alike : tree.Alike other) (wf : tree.WellFormed)
    (wf' : other.WellFormed) (place : Place)
    : (other.children place).isEmpty = (tree.children place).isEmpty := by
  have empty {some : FileTree} (wf : some.WellFormed)
      : (some.children place).isEmpty = true ↔ ∀ name, some.get? (place ++ [name]) = none := by
    rw [List.isEmpty_iff, List.eq_nil_iff_forall_not_mem, Prod.forall]
    simp only [wf.mem_children, Option.eq_none_iff_forall_ne_some, ne_eq]
  rw [Bool.eq_iff_iff, empty wf, empty wf']
  refine forall_congr' fun name => ?_
  rcases alike.get?_cases (place ++ [name]) with ⟨free, free'⟩ | ⟨_, _, stands, stands', _⟩
  · simp [free, free']
  · simp [stands, stands']

/-- What is done unless a condition holds fails alike when it fails alike where the condition does not
hold.
-/
theorem map_unless {α : Type} {condition : Prop} [Decidable condition] {fault : FileFault}
    {one two : PUnit → Except FileFault α}
    (same : (one ⟨⟩).map (fun _ => ()) = (two ⟨⟩).map fun _ => ())
    : (if condition then throw fault >>= one else one ⟨⟩).map (fun _ => ())
      = (if condition then throw fault >>= two else two ⟨⟩).map fun _ => () := by
  split
  · rfl
  · exact same

/-- An entry is moved in both trees or in none, and then for the same reason. -/
theorem Alike.rename_eq (alike : tree.Alike other) (wf : tree.WellFormed) (wf' : other.WellFormed)
    (source target : Path)
    : (other.rename source target).map (fun _ => ()) = (tree.rename source target).map fun _ => () := by
  unfold rename
  rcases alike.lookup_cases false source with ⟨fault, failed, failed'⟩ |
    ⟨place, entry, same, found, found', kind⟩
  · rw [failed, failed']
    rfl
  rw [found, found', Except.ok_bind, Except.ok_bind, alike.resolve_eq]
  cases tree.resolve false target with
  | error fault => rfl
  | ok goal =>
      simp only [Except.ok_bind]
      split
      · rfl
      apply map_unless
      apply map_unless
      rcases alike.get?_cases goal with ⟨free, free'⟩ | ⟨old, old', stands, stands', kind'⟩
      · rw [free, free']
        rfl
      · simp only [stands, stands', kind, kind', alike.isEmpty_children wf wf']
        apply map_unless
        apply map_unless
        apply map_unless
        rfl

/-- A file is made whatever is in it, and what is in it makes no other difference; or it is not made, for
the same reason.
-/
theorem WellFormed.create_cases (wf : tree.WellFormed) (path : Path) (content other : Bytes)
    (mode : Nat)
    : (∃ fault,
        tree.create path (.file content mode) = .error fault
        ∧ tree.create path (.file other mode) = .error fault)
      ∨ ∃ after after',
          tree.create path (.file content mode) = .ok after
          ∧ tree.create path (.file other mode) = .ok after'
          ∧ after.WellFormed
          ∧ after'.WellFormed
          ∧ after.Alike after' := by
  cases made : tree.create path (.file content mode) with
  | error fault =>
      refine Or.inl ⟨fault, rfl, ?_⟩
      rw [← made]
      unfold FileTree.create at made ⊢
      cases resolved : tree.resolve false path with
      | error fault => rfl
      | ok place =>
          rw [resolved, Except.ok_bind] at made
          rw [Except.ok_bind, Except.ok_bind]
          cases free : tree.get? place with
          | none => rw [free] at made; exact absurd made (by simp [pure, Except.pure])
          | some entry => rfl
  | ok after =>
      obtain ⟨place, created⟩ := wf.create made
      have made' : tree.create path (.file other mode) = .ok (tree.put place (.file other mode)) := by
        rw [FileTree.create, created.resolved, Except.ok_bind, created.free]
        rfl
      obtain ⟨place', created'⟩ := wf.create made'
      obtain rfl := Except.ok.inj (created.resolved.symm.trans created'.resolved)
      refine Or.inr ⟨after, _, rfl, made', created.wellFormed, created'.wellFormed, ?_, ?_⟩
      · rw [created.here, created'.here]
      · intro other
        rw [created.get?_eq, created'.get?_eq]
        split <;> rfl

-----------------------------------------------------------------------------------------
-- Trees that list their entries in another order
-----------------------------------------------------------------------------------------

theorem WellFormed.of_perm (wf : tree.WellFormed) (same : other.entries.Perm tree.entries)
    : other.WellFormed where
  unique := (same.map Prod.fst).nodup_iff.mpr wf.unique
  belowRoot e listed := wf.belowRoot e (same.mem_iff.mp listed)
  grounded e listed :=
    (wf.grounded e (same.mem_iff.mp listed)).imp_right fun ⟨mode, above⟩ =>
      ⟨mode, same.mem_iff.mpr above⟩

/-- What stands at a place does not depend on the order in which a tree lists its entries. -/
theorem WellFormed.get?_of_perm (wf : tree.WellFormed) (same : other.entries.Perm tree.entries)
    (place : Place)
    : other.get? place = tree.get? place := by
  by_cases root : place = []
  · rw [root, get?_nil, get?_nil]
  · ext entry
    rw [(wf.of_perm same).get?_eq_some_iff root, wf.get?_eq_some_iff root, same.mem_iff]

/-- Where a path leads does not depend on that order. -/
theorem WellFormed.lookup_of_perm (wf : tree.WellFormed) (same : other.entries.Perm tree.entries)
    (here : other.here = tree.here) (follow : Bool) (path : Path)
    : other.lookup follow path = tree.lookup follow path := by
  have alike : tree.Alike other := ⟨here, fun place => by rw [wf.get?_of_perm same]⟩
  simp only [lookup, alike.resolve_eq, wf.get?_of_perm same]

end FileTree

end Vetting
