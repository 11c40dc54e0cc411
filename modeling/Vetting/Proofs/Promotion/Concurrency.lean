import Vetting.Proofs.Files.Setup
import Vetting.Proofs.Promotion.Committing
import Vetting.Proofs.Promotion.Inspecting

/-! Two promotions into one output directory at once. When no required path of the one leads to or
through one of the other, each commit ends as it would alone, however their operations are interleaved:
all required files of the draft stand in their places, or what stood there before.
-/

namespace Vetting

open FileTree

namespace PromotionGate

variable {gate other : PromotionGate} {tree after : FileTree} {name otherName : Bytes}

-----------------------------------------------------------------------------------------
-- Gates that do not get in each other's way
-----------------------------------------------------------------------------------------

/-- A gate whose commits may run among others, with a name for its directory for copies: no link turns
its ways off, and none of its required paths leads to or through another one, to what it sets aside, or
through the output directory and back.
-/
structure Orderly (gate : PromotionGate) (tree : FileTree) (name : Bytes) : Prop where
  fresh : gate.Fresh tree name
  unparked : gate.Unparked
  straight : gate.Straight tree
  aside : gate.Aside tree
  apart : gate.destinations.Pairwise SafePath.Apart

/-- The files of a draft are read without what stands at the places of required files of another gate.
-/
def ReadsApart (gate other : PromotionGate) (tree : FileTree) : Prop :=
  ∀ path ∈ gate.rules.requiredFiles,
    ∀ source content,
      SafePath.resolve gate.draftRoot path = .ok source
      → tree.readFile source = .ok content
      → (tree.without (other.destinations.map (other.goal tree))).readFile source = .ok content

/-- The required paths of a gate lead neither to nor through those of another one, nor through the
directory in which the other one keeps its copies, which has a name of its own; and its draft lies
outside of the places of the other's required files.
-/
structure Beside (gate other : PromotionGate) (tree : FileTree) (name otherName : Bytes)
    : Prop where
  sameRoot : other.outputRoot = gate.outputRoot
  distinct : name ≠ otherName
  clear : ∀ path ∈ gate.rules.requiredFiles, otherName ∉ SafePath.names path
  apart : ∀ one ∈ gate.destinations, ∀ two ∈ other.destinations, SafePath.Apart one two
  draft : gate.ReadsApart other tree

theorem goal_ne_nil {path : String} (listed : path ∈ gate.destinations)
    : gate.goal tree path ≠ [] := by
  simp [goal, (mem_destinations.mp listed).2]

/-- A gate does not work on the ways of another one beside it. -/
theorem Beside.not_owns_of_passes (beside : gate.Beside other tree name otherName)
    (orderly : gate.Orderly tree name) (clear : ∀ path ∈ other.rules.requiredFiles,
      name ∉ SafePath.names path) {place : Place} (passes : other.Passes tree place)
    : ¬ gate.Owns tree name place := by
  refine PromotionGate.not_owns_of_passes beside.sameRoot orderly.fresh.start ?_ orderly.aside ?_
    passes
  · intro way member
    have output := orderly.fresh.output
    rw [← beside.sameRoot] at output
    rcases List.mem_cons.mp member with rfl | member
    · exact output
    · obtain ⟨path, required, rfl⟩ := List.mem_map.mp member
      rw [List.mem_append, not_or]
      exact ⟨output, fun inside => clear path required (List.dropLast_subset _ inside)⟩
  · intro one listed two required inside
    by_cases safe : SafePath.names two = []
    · rw [safe, List.dropLast_nil, List.prefix_nil] at inside
      exact (mem_destinations.mp listed).2 inside
    · have listed' := mem_destinations.mpr ⟨required, safe⟩
      exact (beside.apart one listed two listed').1 (inside.trans (List.dropLast_prefix _))

/-- The part of a tree in which a gate works while another one works beside it. -/
def Beside.precinct (wf : tree.WellFormed) (orderly : gate.Orderly tree name)
    (otherOrderly : other.Orderly tree otherName) (beside : gate.Beside other tree name otherName)
    (back : other.Beside gate tree otherName name)
    : Precinct where
  gate := gate
  name := name
  base := tree
  core := tree.without (other.destinations.map (other.goal tree))
  foreign := other.Owns tree otherName
  foreignMade := other.Passes tree
  wellFormed := wf
  fresh := orderly.fresh
  unparked := orderly.unparked
  straight := orderly.straight
  aside := orderly.aside
  apart := orderly.apart
  coreHere := tree.here_without _
  inCore := by
    intro place entry found
    obtain ⟨here, outside⟩ := wf.get?_without (by simp +contextual [goal_ne_nil]) found
    refine ⟨here, ?_⟩
    rintro (inside | ⟨path, listed, inside⟩)
    · exact otherOrderly.fresh.clear_of_get? wf here (inside.subset (by simp))
    · exact outside _ (List.mem_map_of_mem listed) inside
  ownForeign := by
    intro place owns
    refine ⟨not_owns_of_owns beside.sameRoot beside.distinct ?_ ?_ beside.apart owns, fun passes => ?_⟩
    · exact fun path listed => back.clear path (mem_destinations.mp listed).1
    · exact fun path listed => beside.clear path (mem_destinations.mp listed).1
    · exact beside.not_owns_of_passes orderly back.clear passes owns
  waysForeign := fun place passes => back.not_owns_of_passes otherOrderly beside.clear passes

/-- What has become of the required files of a gate: after a commit that succeeds, the path of each is
read with the bytes of the draft; after one that fails, what stood before at the place of each stands
there, and below it.
-/
def Settled (gate : PromotionGate) (tree after : FileTree)
    : Except PromotionFault (List StagedFile) → Prop
  | .ok _ =>
      ∀ path ∈ gate.rules.requiredFiles,
        ∃ target content,
          SafePath.resolve gate.outputRoot path = .ok target
          ∧ after.readFile target = .ok content
          ∧ ∀ source bytes,
              SafePath.resolve gate.draftRoot path = .ok source
              → tree.readFile source = .ok bytes
              → content = bytes
  | .error _ =>
      ∀ path ∈ gate.destinations,
        ∀ way, after.get? (gate.goal tree path ++ way) = tree.get? (gate.goal tree path ++ way)

/-- What a commit secures in a precinct is what is claimed of the gate, when its draft lies outside of
the places of the other's required files.
-/
theorem Beside.settled (wf : tree.WellFormed) (orderly : gate.Orderly tree name)
    (otherOrderly : other.Orderly tree otherName) (beside : gate.Beside other tree name otherName)
    (back : other.Beside gate tree otherName name)
    {answer : Except PromotionFault (List StagedFile)}
    (ended
      : PromotionStep.Ending (fun _ => (precinct wf orderly otherOrderly beside back).Committed)
          (precinct wf orderly otherOrderly beside back).AsBefore answer after)
    : gate.Settled tree after answer := by
  cases answer with
  | error fault => exact ended.kept
  | ok files =>
      obtain ⟨promoted, safe⟩ := ended
      intro path required
      obtain ⟨content, read, same⟩ := promoted.readFile (safe path required)
      refine ⟨_, content, Precinct.resolve_destination (safe path required), read, ?_⟩
      intro source bytes resolved readBefore
      exact same bytes ⟨source, resolved, beside.draft path required source bytes resolved readBefore⟩

end PromotionGate

end Vetting
