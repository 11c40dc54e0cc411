import Vetting.Promotion.Report

/-! Entries sorted by their keys. Sorting keeps the entries when no key is listed twice, and leaves
entries as they are that are sorted already.
-/

namespace Vetting.PromotionReport

/-- The keys of entries come one after another, and none of them twice. -/
def Sorted (entries : List (String × String)) : Prop :=
  entries.Pairwise fun one two => one.1 < two.1

variable {key value : String} {entries : List (String × String)}

theorem lt_of_not {one two : String} (other : one ≠ two) (notBefore : ¬ one < two) : two < one := by
  by_cases before : two < one
  · exact before
  · exact absurd (String.le_antisymm (String.not_lt.mp before) (String.not_lt.mp notBefore)) other

/-- Adding an entry with a new key adds just this entry, by induction on the entries. -/
theorem insertSorted_perm (absent : key ∉ entries.map Prod.fst)
    : (insertSorted key value entries).Perm ((key, value) :: entries) := by
  induction entries with
  | nil => exact .refl _
  | cons entry rest ih =>
      rw [List.map_cons, List.mem_cons, not_or] at absent
      unfold insertSorted
      rw [if_neg (by simpa using absent.1)]
      split
      · exact .refl _
      · exact ((ih absent.2).cons entry).trans (.swap (key, value) entry rest)

theorem mem_insertSorted {entry : String × String} (member : entry ∈ insertSorted key value entries)
    : entry = (key, value) ∨ entry ∈ entries := by
  induction entries with
  | nil => simpa [insertSorted] using member
  | cons first rest ih =>
      unfold insertSorted at member
      split at member
      · rcases List.mem_cons.mp member with same | later
        · exact Or.inl same
        · exact Or.inr (List.mem_cons_of_mem _ later)
      split at member
      · simpa using member
      · rcases List.mem_cons.mp member with same | later
        · exact Or.inr (same ▸ List.mem_cons_self)
        · exact (ih later).imp_right (List.mem_cons_of_mem _)

/-- Adding an entry keeps entries sorted, by induction on them. -/
theorem Sorted.insert (sorted : Sorted entries) : Sorted (insertSorted key value entries) := by
  induction entries with
  | nil => exact List.pairwise_singleton _ _
  | cons first rest ih =>
      obtain ⟨before, onward⟩ := List.pairwise_cons.mp sorted
      unfold insertSorted
      split
      · rename_i same
        obtain rfl : key = first.1 := by simpa using same
        exact List.pairwise_cons.mpr ⟨before, onward⟩
      rename_i other
      split
      · rename_i earlier
        refine List.pairwise_cons.mpr ⟨fun entry member => ?_, sorted⟩
        rcases List.mem_cons.mp member with rfl | later
        · exact earlier
        · exact String.lt_trans earlier (before entry later)
      · rename_i notEarlier
        refine List.pairwise_cons.mpr ⟨fun entry member => ?_, ih onward⟩
        rcases mem_insertSorted member with rfl | later
        · exact lt_of_not (by simpa using other) notEarlier
        · exact before entry later

/-- An entry with a key after all others is added at the end, by induction on the entries. -/
theorem insertSorted_last (last : ∀ entry ∈ entries, entry.1 < key)
    : insertSorted key value entries = entries ++ [(key, value)] := by
  induction entries with
  | nil => rfl
  | cons entry rest ih =>
      obtain ⟨before, onward⟩ := List.forall_mem_cons.mp last
      have other : key ≠ entry.1 := by
        rintro rfl
        exact String.lt_irrefl _ before
      rw [insertSorted, if_neg (by simpa using other), if_neg (String.lt_asymm before), ih onward]
      rfl

/-- The keys of sorted entries come one after another. -/
theorem sorted_sortedEntries (entries : List (String × String)) : Sorted (sortedEntries entries) := by
  suffices sorted : ∀ before, Sorted before →
      Sorted (entries.foldl (fun sorted entry => insertSorted entry.1 entry.2 sorted) before) from
    sorted [] .nil
  induction entries with
  | nil => exact fun before sorted => sorted
  | cons entry rest ih => exact fun before sorted => ih _ sorted.insert

/-- Sorting keeps entries of which no key is listed twice, by induction on them. -/
theorem sortedEntries_perm (distinct : (entries.map Prod.fst).Nodup)
    : (sortedEntries entries).Perm entries := by
  suffices kept : ∀ before : List (String × String), ((before ++ entries).map Prod.fst).Nodup →
      (entries.foldl (fun sorted entry => insertSorted entry.1 entry.2 sorted) before).Perm
        (before ++ entries) from
    kept [] distinct
  clear distinct
  induction entries with
  | nil => exact fun before _ => by simp
  | cons entry rest ih =>
      intro before distinct
      have middle : (before ++ entry :: rest).Perm (entry :: (before ++ rest)) := List.perm_middle
      have apart := (middle.map Prod.fst).nodup_iff.mp distinct
      rw [List.map_cons, List.nodup_cons] at apart
      have absent : entry.1 ∉ before.map Prod.fst := fun member =>
        apart.1 (by rw [List.map_append]; exact List.mem_append_left _ member)
      have added : (insertSorted entry.1 entry.2 before).Perm (entry :: before) :=
        insertSorted_perm absent
      have next := added.append_right rest
      exact (ih _ ((next.map Prod.fst).nodup_iff.mpr (List.nodup_cons.mpr apart))).trans
        (next.trans middle.symm)

/-- Sorting leaves sorted entries as they are. -/
theorem sortedEntries_of_sorted (sorted : Sorted entries) : sortedEntries entries = entries := by
  suffices kept : ∀ before : List (String × String), Sorted (before ++ entries) →
      entries.foldl (fun sorted entry => insertSorted entry.1 entry.2 sorted) before
      = before ++ entries from
    kept [] sorted
  clear sorted
  induction entries with
  | nil => exact fun before _ => by simp
  | cons entry rest ih =>
      intro before sorted
      have last : ∀ other ∈ before, other.1 < entry.1 := fun other member =>
        (List.pairwise_append.mp sorted).2.2 other member entry List.mem_cons_self
      rw [List.foldl_cons, insertSorted_last last, ih _ (by simpa using sorted)]
      simp

end Vetting.PromotionReport
