import Vetting.Proofs.Files.Regions
import Vetting.Proofs.Promotion.FreshNames

/-! The part of a tree in which a promotion works: the directory for its copies, and what stands at or
below the places of its required files. Everywhere else it only makes directories on its ways. Two
promotions into one output directory work in different parts when none of their required paths leads
to or through another, and then neither of them is on the ways of the other.
-/

namespace Vetting

open FileTree

/-- Neither of two required paths leads to the other or through it. -/
def SafePath.Apart (one two : String) : Prop :=
  ¬ SafePath.names one <+: SafePath.names two ∧ ¬ SafePath.names two <+: SafePath.names one

instance (one two : String) : Decidable (SafePath.Apart one two) :=
  inferInstanceAs (Decidable (_ ∧ _))

theorem SafePath.Apart.symm {one two : String} (apart : Apart one two) : Apart two one :=
  ⟨apart.2, apart.1⟩

namespace PromotionGate

-----------------------------------------------------------------------------------------
-- The places of a promotion
-----------------------------------------------------------------------------------------

/-- The required paths that are safe. -/
def destinations (gate : PromotionGate) : List String :=
  gate.rules.requiredFiles.filter fun path => !(SafePath.names path).isEmpty

/-- The place to which the path of the output directory leads when it passes no links. -/
def outputPlace (gate : PromotionGate) (tree : FileTree) : Place :=
  gate.outputRoot.written.foldl step (gate.outputRoot.start tree.here)

/-- Where a required file belongs. -/
def goal (gate : PromotionGate) (tree : FileTree) (path : String) : Place :=
  gate.outputPlace tree ++ SafePath.names path

/-- No link stands on the ways of a gate. -/
def Straight (gate : PromotionGate) (tree : FileTree) : Prop :=
  ∀ way ∈ gate.ways, tree.LinkFree (gate.outputRoot.start tree.here) way

/-- The path of the output directory does not pass the place of a required file. -/
def Aside (gate : PromotionGate) (tree : FileTree) : Prop :=
  ∀ front,
    front <+: gate.outputRoot.written
    → ∀ path ∈ gate.destinations,
        ¬ gate.goal tree path <+: front.foldl step (gate.outputRoot.start tree.here)

/-- A place on the ways of a gate. -/
def Passes (gate : PromotionGate) (tree : FileTree) (place : Place) : Prop :=
  ∃ way ∈ gate.ways,
    ∃ front, front <+: way ∧ place = front.foldl step (gate.outputRoot.start tree.here)

/-- A place in the directory for copies, or at or below the place of a required file. -/
def Owns (gate : PromotionGate) (tree : FileTree) (name : Bytes) (place : Place) : Prop :=
  gate.outputPlace tree ++ [name] <+: place
  ∨ ∃ path ∈ gate.destinations, gate.goal tree path <+: place

variable {gate other : PromotionGate} {tree : FileTree} {name otherName : Bytes} {place : Place}
  {path one two : String}

theorem mem_destinations
    : path ∈ gate.destinations
      ↔ path ∈ gate.rules.requiredFiles ∧ SafePath.names path ≠ [] := by
  simp [destinations]

theorem Passes.of_written {front : List Bytes} (isFront : front <+: gate.outputRoot.written)
    : gate.Passes tree (front.foldl step (gate.outputRoot.start tree.here)) :=
  ⟨_, List.mem_cons_self, front, isFront, rfl⟩

/-- Where names from the place of the output directory lead. -/
theorem foldl_outputPlace {names : List Bytes} (proper : ∀ name ∈ names, Path.IsName name)
    : (gate.outputRoot.written ++ names).foldl step (gate.outputRoot.start tree.here)
      = gate.outputPlace tree ++ names := by
  rw [List.foldl_append, foldl_step_of_isName _ proper]
  rfl

/-- Where no link is on the ways, the path of a required file leads to its place. -/
theorem resolve_goal {between : FileTree}
    (linkFree : ∀ way ∈ gate.ways, between.LinkFree (gate.outputRoot.start tree.here) way)
    (here : between.here = tree.here) (listed : path ∈ gate.destinations)
    (resolved
      : between.resolve false (gate.outputRoot.below (SafePath.names path)) = .ok place)
    : place = gate.goal tree path := by
  obtain ⟨required, some⟩ := mem_destinations.mp listed
  have proper : ∀ name ∈ SafePath.names path, Path.IsName name :=
    fun _ => SafePath.isName_of_mem_names
  have starts : (gate.outputRoot.below (SafePath.names path)).start between.here
      = gate.outputRoot.start tree.here := by
    rw [Path.start, Path.isAbsolute_below _ proper, here, Path.start]
  have free := linkFree _ (List.mem_cons_of_mem _ (List.mem_map_of_mem required))
  rw [← List.dropLast_append_of_ne_nil some] at free
  rw [free.resolve_eq (by simp) starts (Path.names_below _ some proper) resolved]
  exact foldl_outputPlace proper

theorem names_of_goal_prefix {way : Place}
    (inside : gate.goal tree one <+: gate.goal tree two ++ way)
    : ¬ SafePath.Apart one two := by
  rw [goal, goal, List.append_assoc, List.prefix_append_right_inj] at inside
  rintro ⟨first, second⟩
  exact (List.prefix_or_prefix_of_prefix inside (List.prefix_append _ _)).elim first second

/-- No place on the ways of one gate is one in which another one works, when its required paths do not
lead to the directories of the other's and the name of its directory for copies is on no way.
-/
theorem not_owns_of_passes (sameRoot : other.outputRoot = gate.outputRoot)
    (startClear : name ∉ gate.outputRoot.start tree.here) (clear : ∀ way ∈ other.ways, name ∉ way)
    (aside : gate.Aside tree)
    (apart
      : ∀ one ∈ gate.destinations,
          ∀ two ∈ other.rules.requiredFiles,
            ¬ SafePath.names one <+: (SafePath.names two).dropLast)
    (passes : other.Passes tree place)
    : ¬ gate.Owns tree name place := by
  obtain ⟨way, member, front, isFront, rfl⟩ := passes
  rw [sameRoot]
  rintro (inside | ⟨one, listed, inside⟩)
  · have wayClear := (clear_singleton.mpr (clear way member)).subset isFront.subset
    have placeClear := (clear_singleton.mpr startClear).foldl_step wayClear
    exact clear_singleton.mp placeClear (inside.subset (by simp))
  · have outside := fun isFront => aside front isFront one listed inside
    rcases List.mem_cons.mp member with rfl | member
    · exact outside (sameRoot ▸ isFront)
    · obtain ⟨two, required, rfl⟩ := List.mem_map.mp member
      rw [sameRoot] at isFront
      rcases List.prefix_or_prefix_of_prefix isFront (List.prefix_append _ _) with short | long
      · exact outside short
      obtain ⟨rest, rfl⟩ := long
      have isRest := (List.prefix_append_right_inj _).mp isFront
      have proper : ∀ name ∈ rest, Path.IsName name := fun name inner =>
        SafePath.isName_of_mem_names (List.dropLast_subset _ (isRest.subset inner))
      rw [foldl_outputPlace proper, goal, List.prefix_append_right_inj] at inside
      exact apart one listed two required (inside.trans isRest)

/-- Two gates work at no place both, when their required paths are apart, their directories for copies
have different names, and neither of these is a name of a required file of the other gate.
-/
theorem not_owns_of_owns (sameRoot : other.outputRoot = gate.outputRoot)
    (distinct : name ≠ otherName) (clear : ∀ path ∈ other.destinations, name ∉ SafePath.names path)
    (otherClear : ∀ path ∈ gate.destinations, otherName ∉ SafePath.names path)
    (apart : ∀ one ∈ gate.destinations, ∀ two ∈ other.destinations, SafePath.Apart one two)
    (owns : gate.Owns tree name place)
    : ¬ other.Owns tree otherName place := by
  have sameGoal : ∀ path, other.goal tree path = gate.goal tree path := by
    simp [goal, outputPlace, sameRoot]
  have samePlace : other.outputPlace tree = gate.outputPlace tree := by
    simp [outputPlace, sameRoot]
  -- Two places that lie above a third one lie above each other, and their first names are the same.
  have meet : ∀ {names others : List Bytes},
      names ≠ [] → others ≠ [] →
      gate.outputPlace tree ++ names <+: place → gate.outputPlace tree ++ others <+: place →
      names.head? = others.head? := by
    intro names others some some' inside inside'
    rcases List.prefix_or_prefix_of_prefix inside inside' with h | h <;>
      rw [List.prefix_append_right_inj] at h <;> obtain ⟨rest, rfl⟩ := h
    · rw [List.head?_append_of_ne_nil _ some]
    · rw [List.head?_append_of_ne_nil _ some']
  have mem_of_meet : ∀ {name : Bytes} {names : List Bytes}, [name].head? = names.head? →
      name ∈ names := fun same => List.mem_of_head? same.symm
  rintro (inside' | ⟨two, listed', inside'⟩) <;> obtain inside | ⟨one, listed, inside⟩ := owns
  · rw [samePlace] at inside'
    exact distinct (by simpa using meet (by simp) (by simp) inside inside')
  · rw [samePlace] at inside'
    have some := (mem_destinations.mp listed).2
    exact otherClear one listed (mem_of_meet (meet (by simp) some inside' inside))
  · rw [sameGoal] at inside'
    have some := (mem_destinations.mp listed').2
    exact clear two listed' (mem_of_meet (meet (by simp) some inside inside'))
  · rw [sameGoal] at inside'
    rcases List.prefix_or_prefix_of_prefix inside inside' with h | h
    · exact names_of_goal_prefix (h.trans (List.prefix_append _ [])) (apart one listed two listed')
    · exact names_of_goal_prefix (h.trans (List.prefix_append _ []))
        (apart one listed two listed').symm

end PromotionGate

end Vetting
